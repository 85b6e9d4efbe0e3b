import DevfilePush.Proofs.Engine.Runs
import DevfilePush.Simulation.Lot

/-!
# Engines that go by lots

An engine that meets each call by some lot is an honest one. It can always answer, and the only ids that
it gives are those of its lots, so that ids which are drawn once stay distinct.

## Main statements

* `Lot.honest_conduct`: what is replied was done.
* `Lot.exists_answers`: every call is answered.
* `Lot.ids_leaves`, `Script.Undergoes.ids`: the ids that there can be after a call and after a run.
-/

namespace DevfilePush

/-- The ids of all containers. -/
def Holdings.ids (h : Holdings) : List String := h.containers.map (·.live.id)

variable {commandLine : ContainerConfig → String} {lot : Lot} {exitCode : Int32} {h : Holdings}
  {r : Request}

namespace Lot

/-! ## Answers -/

/-- What is replied is granted. -/
theorem grants_effect {reply : r.Reply} (replies : lot.Replies exitCode h r reply) :
    h.Grants r reply (lot.effect commandLine h r) := by
  cases r with
  | listVolumes | listContainers | inspectContainer => exact ⟨replies, rfl⟩
  | createVolume stem labels =>
    obtain rfl : reply = (⟨lot.volume, labels⟩ : Volume) := replies
    exact ⟨rfl, rfl⟩
  | createContainer d => exact ⟨lot.container commandLine d, replies.symm, rfl, rfl, rfl⟩
  | pullImage | removeContainer | exec => rfl

/-- Whatever is called, nothing changes or the call is one that could be granted. -/
theorem effect_cases (commandLine : ContainerConfig → String) (lot : Lot) (h : Holdings) (r : Request) :
    lot.effect commandLine h r = h ∨ ∃ reply, h.Grants r reply (lot.effect commandLine h r) := by
  cases r with
  | createVolume stem labels => exact .inr ⟨(⟨lot.volume, labels⟩ : Volume), rfl, rfl⟩
  | createContainer d => exact .inr ⟨lot.id, lot.container commandLine d, rfl, rfl, rfl, rfl⟩
  | removeContainer id => exact .inr ⟨(), rfl⟩
  | listVolumes | pullImage | listContainers | inspectContainer | exec => exact .inl rfl

/-- Every call has a reply, but for one that inspects what is not there. -/
theorem exists_replies
    (there : ∀ id, r = .inspectContainer id → ∃ c ∈ h.containers, c.live.id = id) :
    ∃ reply, lot.Replies exitCode h r reply := by
  cases r with
  | listVolumes selector => exact ⟨h.volumesWith selector, .refl _⟩
  | createVolume stem labels => exact ⟨(⟨lot.volume, labels⟩ : Volume), rfl⟩
  | pullImage | removeContainer => exact ⟨(), trivial⟩
  | createContainer d => exact ⟨lot.id, rfl⟩
  | listContainers selector => exact ⟨(h.containersWith selector).map Running.live, List.Perm.refl _⟩
  | inspectContainer id =>
    obtain ⟨c, hc, hid⟩ := there id rfl
    exact ⟨c.definition, c, hc, hid, rfl⟩
  | exec => exact ⟨exitCode, rfl⟩

/-- Every call is answered. -/
theorem exists_answers (lot : Lot) (h : Holdings) (r : Request) : ∃ answer, lot.Answers h r answer := by
  cases hfate : lot.fate with
  | served exitCode =>
    by_cases hreply : ∃ reply, lot.Replies exitCode h r reply
    · obtain ⟨reply, hreply⟩ := hreply
      exact ⟨.reply reply, exitCode, hfate, hreply⟩
    · exact ⟨.refused "", .inr ⟨exitCode, hfate, not_exists.1 hreply⟩⟩
  | refused reason happened => exact ⟨.refused reason, .inl ⟨happened, hfate⟩⟩
  | expired happened => exact ⟨.expired, happened, hfate⟩

/-- A call that happens has its effect, and another has none. -/
theorem leaves_cases (commandLine : ContainerConfig → String) (lot : Lot) (h : Holdings) (r : Request) :
    lot.leaves commandLine h r = h ∨ lot.leaves commandLine h r = lot.effect commandLine h r := by
  unfold leaves
  split
  · exact .inr rfl
  · exact .inl rfl

theorem leaves_of_served (hfate : lot.fate = .served exitCode) :
    lot.leaves commandLine h r = lot.effect commandLine h r := by
  simp [leaves, hfate, Fate.happens]

/-- An engine that goes by lots is honest. -/
theorem honest_conduct (commandLine : ContainerConfig → String) : (conduct commandLine).Honest where
  granted := by
    rintro before r reply after ⟨lot, ⟨exitCode, hfate, replies⟩, rfl⟩
    rw [leaves_of_served hfate]
    exact grants_effect replies
  effect := by
    rintro before r answer after ⟨lot, -, rfl⟩
    rcases lot.leaves_cases commandLine before r with h | h
    · exact .inl h
    · rw [h]
      exact lot.effect_cases commandLine before r

/-! ## Ids -/

/-- The only id that a call can bring is that of its lot. -/
theorem ids_leaves (commandLine : ContainerConfig → String) (lot : Lot) (h : Holdings) (r : Request) :
    (lot.leaves commandLine h r).ids.Sublist (h.ids ++ [lot.id]) := by
  have hsame : h.ids.Sublist (h.ids ++ [lot.id]) := List.sublist_append_left _ _
  rcases lot.leaves_cases commandLine h r with heq | heq
  · rw [heq]
    exact hsame
  rw [heq]
  cases r with
  | createContainer d =>
    simp [effect, Holdings.ids, Holdings.addContainer, container]
  | removeContainer id =>
    have hfewer : (h.removeContainer id).ids.Sublist h.ids := List.filter_sublist.map _
    exact hfewer.trans hsame
  | createVolume | listVolumes | pullImage | listContainers | inspectContainer | exec => exact hsame

end Lot

/-- The only ids that a run can bring are those of its lots. -/
theorem Script.Undergoes.ids {α : Type} {s : Script α} {lots : List Lot} {before after : Holdings}
    {verdict : Except PushError α} (run : s.Undergoes commandLine lots before verdict after) :
    after.ids.Sublist (before.ids ++ lots.map (·.id)) := by
  induction s generalizing lots before with
  | done | fail =>
    obtain ⟨-, rfl⟩ := run
    exact List.sublist_append_left _ _
  | log event next ih => exact ih run
  | call request deadline next ih =>
    obtain ⟨lot, rest, answer, rfl, -, hnext⟩ := run
    have hrest := ih answer hnext
    have hcall := (lot.ids_leaves commandLine before request).append_right (rest.map (·.id))
    rw [List.append_assoc] at hcall
    exact hrest.trans hcall

end DevfilePush
