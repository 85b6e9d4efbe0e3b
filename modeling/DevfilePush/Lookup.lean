/-!
# Looking up by label

A query by labels stands for a unique index that the engine does not have, so it has one of three
outcomes, and more than one match is never resolved by choosing.
-/

namespace DevfilePush

/-- The outcome of a query that should match at most one resource. -/
inductive Lookup (α : Type) where
  | missing
  | found (resource : α)
  | conflict (resources : List α)
  deriving DecidableEq, Repr

/-- Classifies the matches of a query. -/
def Lookup.ofMatches {α : Type} : List α → Lookup α
  | [] => .missing
  | [resource] => .found resource
  | resources => .conflict resources

namespace Lookup

variable {α : Type} {matched : List α}

theorem ofMatches_eq_missing : ofMatches matched = .missing ↔ matched = [] := by
  rcases matched with _ | ⟨a, _ | ⟨b, rest⟩⟩ <;> simp [ofMatches]

theorem ofMatches_eq_found {resource : α} :
    ofMatches matched = .found resource ↔ matched = [resource] := by
  rcases matched with _ | ⟨a, _ | ⟨b, rest⟩⟩ <;> simp [ofMatches]

theorem ofMatches_eq_conflict {resources : List α} :
    ofMatches matched = .conflict resources ↔ matched = resources ∧ 2 ≤ matched.length := by
  rcases matched with _ | ⟨a, _ | ⟨b, rest⟩⟩ <;> simp [ofMatches]

end Lookup

end DevfilePush
