import DevfilePush.SortedMap

/-!
# Labels

Volumes and containers have no identity but their labels. A query gives a set of labels, the
selector, and means every resource that carries all of them.

## Main definitions

* `Labels`: a finite map from label keys to label values.
* `Labels.selects`: whether a resource's labels hold all those of a selector.
-/

namespace DevfilePush

/-- Label keys with their values, in key order. -/
abbrev Labels := SortedMap String String

namespace Labels

/-- Whether `labels` holds every label of the selector, with the same value. -/
def selects (selector labels : Labels) : Bool :=
  selector.entries.all fun e => labels.get? e.1 = some e.2

theorem selects_iff {selector labels : Labels} :
    selector.selects labels = true ↔
      ∀ k v, selector.get? k = some v → labels.get? k = some v := by
  simp [selects, SortedMap.get?_eq_some_iff]

@[simp] theorem selects_self (labels : Labels) : labels.selects labels = true :=
  selects_iff.2 fun _ _ h => h

/-- The labels as `key=value`, joined by commas. -/
def describe (labels : Labels) : String :=
  ",".intercalate (labels.entries.map fun e => e.1 ++ "=" ++ e.2)

end Labels

end DevfilePush
