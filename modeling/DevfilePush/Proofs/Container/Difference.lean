import DevfilePush.Proofs.Container.Desired

/-!
# What makes a container differ

The aspects in which two definitions differ are read off the definitions themselves: another image,
another entrypoint or other arguments, and a variable, a mount or a binding that only one of the two
has. Agreement is therefore an equivalence, and neither the order of a list nor how often it names an
element, nor any label or exposed port, makes a container be replaced.

## Main definitions

* `Definition.DiffersIn`: an aspect in which two definitions differ.
* `Definition.Restates`: the same definition in other words.

## Main statements

* `Definition.differences_congr`: definitions that agree differ from others alike.
* `Definition.differences_exact`: what the differences of two definitions are.
-/

namespace DevfilePush

section Elements

variable {α : Type}

/-- Some element is in one of two lists and not in the other. -/
def Unshared (xs ys : List α) : Prop := (∃ x ∈ xs, x ∉ ys) ∨ ∃ y ∈ ys, y ∉ xs

/-- A list in any order, with some of its elements named again. -/
def Rewords (xs' xs : List α) : Prop := ∃ again, again ⊆ xs ∧ xs'.Perm (xs ++ again)

theorem Rewords.mem_iff {xs' xs : List α} (h : Rewords xs' xs) {x : α} : x ∈ xs' ↔ x ∈ xs := by
  obtain ⟨again, hagain, hperm⟩ := h
  rw [hperm.mem_iff, List.mem_append]
  exact ⟨fun hx => hx.elim id fun hx => hagain hx, .inl⟩

variable [DecidableEq α] {xs ys : List α}

theorem sameElements_comm : sameElements xs ys = sameElements ys xs := Bool.and_comm ..

theorem sameElements_eq_false_iff : sameElements xs ys = false ↔ Unshared xs ys := by
  rw [← Bool.not_eq_true, sameElements_iff, Unshared]
  grind

end Elements

namespace Definition

variable {d d' a a' : Definition}

/-- The aspects in which two definitions differ. Of variables, mounts and bindings the whole pair or
record counts; labels and exposed ports do not count. -/
def DiffersIn (d a : Definition) : Difference → Prop
  | .image => d.config.image ≠ a.config.image
  | .command => d.config.command ≠ a.config.command ∨ d.config.args ≠ a.config.args
  | .env => Unshared d.config.env a.config.env
  | .mounts => Unshared d.host.mounts a.host.mounts
  | .portBindings => Unshared d.host.portBindings a.host.portBindings

/-- The same definition in other words: its variables, mounts and bindings come in any order and may be
named again, and it has any labels and exposed ports. -/
structure Restates (d' d : Definition) : Prop where
  image : d'.config.image = d.config.image
  command : d'.config.command = d.config.command
  args : d'.config.args = d.config.args
  env : Rewords d'.config.env d.config.env
  mounts : Rewords d'.host.mounts d.host.mounts
  portBindings : Rewords d'.host.portBindings d.host.portBindings

theorem agreesIn_eq_false_iff {aspect : Difference} :
    d.agreesIn a aspect = false ↔ d.DiffersIn a aspect := by
  cases aspect with
  | image => simp [agreesIn, DiffersIn]
  | command => simp [agreesIn, DiffersIn, Decidable.imp_iff_not_or]
  | env | mounts | portBindings => exact sameElements_eq_false_iff

theorem agreesIn_comm (aspect : Difference) : d.agreesIn a aspect = a.agreesIn d aspect := by
  cases aspect with
  | image | command => simp only [agreesIn, eq_comm]
  | env | mounts | portBindings => exact sameElements_comm

theorem agrees_comm : d.agrees a = a.agrees d := by
  rw [Bool.eq_iff_iff, agrees_iff_forall, agrees_iff_forall]
  simp only [agreesIn_comm (d := d)]

/-- Agreement is an equivalence. -/
theorem equivalence_agrees : Equivalence fun d a : Definition => d.agrees a = true where
  refl := agrees_refl
  symm h := agrees_comm.trans h
  trans := agrees_trans

theorem differences_comm : d.differences a = a.differences d := by
  simp only [differences, agreesIn_comm (d := d)]

/-- Definitions that agree differ from any other in the same aspects. -/
theorem differences_congr (h : d'.agrees d = true) : d'.differences a = d.differences a := by
  have hsame : ∀ aspect, d'.agreesIn a aspect = d.agreesIn a aspect := by
    intro aspect
    have haspect : d'.agreesIn d aspect = true := agrees_iff_forall.1 h aspect
    rw [Bool.eq_iff_iff]
    exact ⟨agreesIn_trans (agreesIn_comm aspect ▸ haspect), agreesIn_trans haspect⟩
  simp only [differences, hsame]

/-- A definition in other words agrees with it. -/
theorem Restates.agrees (h : d'.Restates d) : d'.agrees d = true := by
  rw [agrees_iff_forall]
  intro aspect
  cases aspect with
  | image => simp [agreesIn, h.image]
  | command => simp [agreesIn, h.command, h.args]
  | env => exact sameElements_iff.2 fun _ => h.env.mem_iff
  | mounts => exact sameElements_iff.2 fun _ => h.mounts.mem_iff
  | portBindings => exact sameElements_iff.2 fun _ => h.portBindings.mem_iff

/-- **Differences are exact.** The differences of two definitions are the aspects in which they differ,
each of them once and in a fixed order. They do not depend on which of the two is compared with which,
nor on the words of either, and they stay the same where either is replaced by one that it agrees with.
Two definitions without differences agree, and agreement is an equivalence. -/
theorem differences_exact :
    Equivalence (fun d a : Definition => d.agrees a = true) ∧
    ∀ d a : Definition,
      (d.differences a).Sublist [.image, .command, .env, .mounts, .portBindings] ∧
      (d.differences a).Nodup ∧
      (∀ aspect, aspect ∈ d.differences a ↔ d.DiffersIn a aspect) ∧
      (d.agrees a = true ↔ d.differences a = []) ∧
      a.differences d = d.differences a ∧
      (∀ d' a' : Definition, d'.Restates d → a'.Restates a →
        d'.differences a' = d.differences a ∧ d'.agrees a' = d.agrees a) ∧
      (∀ d' : Definition, d.agrees d' = true → d'.differences a = d.differences a) ∧
      ∀ a' : Definition, a.agrees a' = true → d.differences a' = d.differences a := by
  refine ⟨equivalence_agrees, fun d a => ⟨List.filter_sublist, ?_, ?_, agrees_iff, differences_comm,
    ?_, ?_, ?_⟩⟩
  · exact List.filter_sublist.nodup (by decide)
  · intro aspect
    rw [mem_differences, agreesIn_eq_false_iff]
  · intro d' a' hd ha
    have hdifferences : d'.differences a' = d.differences a := by
      calc d'.differences a' = d.differences a' := differences_congr hd.agrees
        _ = a'.differences d := differences_comm
        _ = a.differences d := differences_congr ha.agrees
        _ = d.differences a := differences_comm
    exact ⟨hdifferences, by rw [Definition.agrees, hdifferences, Definition.agrees]⟩
  · intro d' h
    exact (differences_congr h).symm
  · intro a' h
    rw [differences_comm, ← differences_congr h, differences_comm]

end Definition

end DevfilePush
