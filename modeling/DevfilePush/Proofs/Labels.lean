import DevfilePush.Container.Build
import Mathlib.Data.List.Nodup

/-!
# Labels tell resources apart

Resources are found again through their labels alone, so two resources that are looked for apart must
never carry each other's labels. The labels of a role are carried by those of a role only if component
and role are the same, and the labels that a built container has besides are decimal port numbers, which
are neither the component's nor the alias's key.

## Main definitions

* `PortMap.labels`: the labels of bound ports.

## Main statements

* `Labels.ofContainer_selects_iff`, `VolumeRole.labels_selects_iff`: what carries the labels.
* `VolumeRole.labels_selects_labels`: roles do not carry each other's labels.
* `Surroundings.get?_labels_port`: what a built container is labelled with at a port.
* `Surroundings.ofContainer_selects_labels`: what a built container carries.
-/

namespace DevfilePush

open Conventions

/-! ## Keys -/

/-- A port number in decimal is not a text that holds something else than digits. -/
theorem toString_ne_of_mem {n : Nat} {s : String} {c : Char} (hc : c ∈ s.toList)
    (hdigit : c.isDigit = false) : toString n ≠ s := by
  intro h
  have hmem : c ∈ Nat.toDigits 10 n := by
    rw [← h] at hc
    simpa [toString, Nat.repr] using hc
  have := Nat.isDigit_of_mem_toDigits (by decide) (by decide) hmem
  rw [hdigit] at this
  cases this

/-- Different numbers are written differently. -/
theorem toString_nat_injective {m n : Nat} (h : toString m = toString n) : m = n := by
  have hdigits : Nat.toDigits 10 m = Nat.toDigits 10 n := by
    simpa [toString, Nat.repr] using congrArg String.toList h
  have hm := Nat.ofDigitChars_toDigits (b := 10) (n := m) (by decide) (by decide)
  have hn := Nat.ofDigitChars_toDigits (b := 10) (n := n) (by decide) (by decide)
  rw [← hm, hdigits, hn]

theorem toString_ne_componentLabel (n : Nat) : toString n ≠ componentLabel :=
  toString_ne_of_mem (c := 'c') (by decide) (by decide)

theorem toString_ne_aliasLabel (n : Nat) : toString n ≠ aliasLabel :=
  toString_ne_of_mem (c := 'a') (by decide) (by decide)

theorem VolumeRole.mark_ne_componentLabel (role : VolumeRole) : componentLabel ≠ role.mark.1 := by
  cases role with
  | projectSource | supervisor => decide
  | storage name => exact (by decide : componentLabel ≠ storageNameLabel)

/-- The marks of different roles differ. -/
theorem VolumeRole.mark_injective {role other : VolumeRole} (h : role.mark = other.mark) :
    role = other := by
  cases role <;> cases other <;>
    simp [mark, typeLabel, storageNameLabel, projectsType, supervisorType] at h ⊢
  exact h

/-! ## Selectors -/

namespace Labels

variable {component aliasName : String}

@[simp] theorem get?_ofContainer_component :
    (ofContainer component aliasName).get? componentLabel = some component := by
  have h : componentLabel ≠ aliasLabel := by decide
  simp [ofContainer, h]

@[simp] theorem get?_ofContainer_alias :
    (ofContainer component aliasName).get? aliasLabel = some aliasName := by
  simp [ofContainer]

/-- A container's own labels have no number for a key. -/
theorem get?_ofContainer_toString (n : Nat) :
    (ofContainer component aliasName).get? (toString n) = none := by
  rw [ofContainer, SortedMap.get?_insert, SortedMap.get?_insert, if_neg (toString_ne_aliasLabel n),
    if_neg (toString_ne_componentLabel n), SortedMap.get?_empty]

/-- Carrying one label more is carrying this label and the others. -/
theorem selects_insert_iff {selector labels : Labels} {k v : String} (new : selector.get? k = none) :
    selects (selector.insert k v) labels = true ↔
      labels.get? k = some v ∧ selector.selects labels = true := by
  rw [selects_iff, selects_iff]
  constructor
  · intro h
    refine ⟨h k v (by simp), fun j w hj => h j w ?_⟩
    have hne : j ≠ k := by
      rintro rfl
      rw [new] at hj
      cases hj
    rw [SortedMap.get?_insert, if_neg hne, hj]
  · rintro ⟨hk, hrest⟩ j w hj
    rw [SortedMap.get?_insert] at hj
    split at hj
    · subst_vars
      exact hk.trans hj
    · exact hrest j w hj

/-- Carrying a component's label is carrying its name. -/
theorem ofComponent_selects_iff {labels : Labels} :
    (ofComponent component).selects labels = true ↔
      labels.get? componentLabel = some component := by
  rw [ofComponent, selects_insert_iff (SortedMap.get?_empty _)]
  exact and_iff_left rfl

/-- Carrying a container's labels is carrying the component's name and the alias. -/
theorem ofContainer_selects_iff {labels : Labels} :
    (ofContainer component aliasName).selects labels = true ↔
      labels.get? componentLabel = some component ∧ labels.get? aliasLabel = some aliasName := by
  have new : (ofComponent component).get? aliasLabel = none := by
    have hne : aliasLabel ≠ componentLabel := by decide
    simp [ofComponent, hne]
  exact (selects_insert_iff new).trans ((and_congr_right' ofComponent_selects_iff).trans and_comm)

end Labels

namespace VolumeRole

variable {role : VolumeRole} {component : String}

@[simp] theorem get?_labels_component :
    (role.labels component).get? componentLabel = some component := by
  simp [labels, role.mark_ne_componentLabel]

@[simp] theorem get?_labels_mark :
    (role.labels component).get? role.mark.1 = some role.mark.2 := by
  simp [labels]

/-- Carrying a role's labels is carrying the component's name and the role's mark. -/
theorem labels_selects_iff {labels : Labels} :
    (role.labels component).selects labels = true ↔
      labels.get? componentLabel = some component ∧ labels.get? role.mark.1 = some role.mark.2 := by
  have new : (Labels.ofComponent component).get? role.mark.1 = none := by
    simp [Labels.ofComponent, role.mark_ne_componentLabel.symm]
  exact (Labels.selects_insert_iff new).trans
    ((and_congr_right' Labels.ofComponent_selects_iff).trans and_comm)

/-- The labels of a role carry those of a role only if it is the same role of the same component. -/
theorem labels_selects_labels {other : VolumeRole} {component' : String} :
    (role.labels component).selects (other.labels component') = true ↔
      role = other ∧ component = component' := by
  rw [labels_selects_iff, get?_labels_component, Option.some.injEq]
  constructor
  · rintro ⟨hcomponent, hmark⟩
    simp only [VolumeRole.labels, SortedMap.get?_insert, SortedMap.get?_empty] at hmark
    split at hmark
    · have hkey : role.mark.1 = other.mark.1 := ‹_›
      exact ⟨mark_injective (Prod.ext hkey (Option.some.inj hmark).symm), hcomponent.symm⟩
    · split at hmark
      · exact absurd (Eq.symm ‹role.mark.1 = componentLabel›) role.mark_ne_componentLabel
      · cases hmark
  · rintro ⟨rfl, rfl⟩
    exact ⟨rfl, get?_labels_mark⟩

end VolumeRole

/-! ## Labels of built containers -/

namespace PortMap

variable {ports : PortMap}

/-- The labels of bound ports: under each port's number the name of its URL. -/
def labels (ports : PortMap) : List (String × String) :=
  ports.names.map fun e => (toString e.1.toNat, e.2)

theorem mem_labels_of_bound {port : Port} {url : UrlRecord} (h : (port, url) ∈ ports.urls.entries) :
    (toString port.toNat, url.name) ∈ ports.labels :=
  List.mem_map.2 ⟨(port, url.name), List.mem_map.2 ⟨(port, url), h, rfl⟩, rfl⟩

theorem keys_labels (ports : PortMap) :
    ports.labels.map (·.1) = ports.urls.keys.map fun port => toString port.toNat := by
  simp [labels, names, SortedMap.keys]

/-- No two bound ports are labelled under one key. -/
theorem nodup_labels (ports : PortMap) : (ports.labels.map (·.1)).Nodup := by
  rw [keys_labels]
  exact ports.urls.nodup_keys.map fun _ _ h => UInt16.toNat_inj.1 (toString_nat_injective h)

theorem toString_mem_keys_labels {n : Nat} :
    toString n ∈ ports.labels.map (·.1) ↔ ∃ port ∈ ports.urls.keys, port.toNat = n := by
  rw [keys_labels, List.mem_map]
  exact exists_congr fun port => and_congr_right fun _ =>
    ⟨toString_nat_injective, fun h => h ▸ rfl⟩

/-- A key that is not a number is the key of no port. -/
theorem not_mem_keys_labels {k : String} (h : ∀ n : Nat, toString n ≠ k) :
    k ∉ ports.labels.map (·.1) := by
  rw [keys_labels]
  intro hmem
  obtain ⟨port, -, hport⟩ := List.mem_map.1 hmem
  exact h port.toNat hport

end PortMap

namespace Surroundings

variable {inputs : Surroundings} {c : Component} {ports : PortMap}

/-- A container is labelled with its bound ports after its own labels. -/
theorem labels_eq_foldl : inputs.labels c ports =
    ports.labels.foldl (fun labels e => labels.insert e.1 e.2)
      (Labels.ofContainer inputs.component c.aliasName) := by
  rw [labels, PortMap.labels, List.foldl_map]

/-- A bound port is labelled with the name of its URL. -/
theorem get?_labels_of_bound {port : Port} {url : UrlRecord} (h : (port, url) ∈ ports.urls.entries) :
    (inputs.labels c ports).get? (toString port.toNat) = some url.name := by
  rw [labels_eq_foldl]
  exact SortedMap.get?_foldl_insert_of_mem _ ports.nodup_labels (PortMap.mem_labels_of_bound h)

/-- A key that is not the number of a bound port is as it is without ports. -/
theorem get?_labels_of_unbound {k : String} (h : k ∉ ports.labels.map (·.1)) :
    (inputs.labels c ports).get? k =
      (Labels.ofContainer inputs.component c.aliasName).get? k := by
  rw [labels_eq_foldl]
  exact SortedMap.get?_foldl_insert_of_not_mem _ h

/-- Under a number there is the name of the URL bound at this port, if one is. -/
theorem get?_labels_port (port : Port) :
    (inputs.labels c ports).get? (toString port.toNat) = (ports.urls.get? port).map (·.name) := by
  cases hurl : ports.urls.get? port with
  | some url => exact get?_labels_of_bound (SortedMap.get?_eq_some_iff.1 hurl)
  | none =>
    have hunbound : toString port.toNat ∉ ports.labels.map (·.1) := by
      rw [PortMap.toString_mem_keys_labels]
      rintro ⟨bound, hbound, hport⟩
      obtain ⟨url, hget⟩ := SortedMap.mem_keys_iff.1 hbound
      rw [UInt16.toNat_inj.1 hport, hurl] at hget
      cases hget
    rw [get?_labels_of_unbound hunbound, Labels.get?_ofContainer_toString, Option.map_none]

@[simp] theorem get?_labels_component :
    (inputs.labels c ports).get? componentLabel = some inputs.component := by
  rw [get?_labels_of_unbound (PortMap.not_mem_keys_labels toString_ne_componentLabel),
    Labels.get?_ofContainer_component]

@[simp] theorem get?_labels_alias :
    (inputs.labels c ports).get? aliasLabel = some c.aliasName := by
  rw [get?_labels_of_unbound (PortMap.not_mem_keys_labels toString_ne_aliasLabel),
    Labels.get?_ofContainer_alias]

/-- A built container carries the labels of its own component and alias and of no others. -/
theorem ofContainer_selects_labels {component aliasName : String} :
    (Labels.ofContainer component aliasName).selects (inputs.labels c ports) = true ↔
      component = inputs.component ∧ aliasName = c.aliasName := by
  rw [Labels.ofContainer_selects_iff, get?_labels_component, get?_labels_alias,
    Option.some.injEq, Option.some.injEq]
  exact ⟨fun h => ⟨h.1.symm, h.2.symm⟩, fun h => ⟨h.1.symm, h.2.symm⟩⟩

end Surroundings

end DevfilePush
