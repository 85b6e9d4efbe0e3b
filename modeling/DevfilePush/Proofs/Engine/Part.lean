import DevfilePush.Proofs.Engine.Lots
import DevfilePush.Proofs.Labels

/-!
# The part of an engine that belongs to a component

Every resource is labelled with the component that it belongs to, or with none. A call that keeps to a
component selects, makes, inspects or removes only what belongs to it. Such a call goes as it would if the
component's part were all that the engine holds, and it leaves every other part as it was, so that calls
that keep to different components do not depend on each other.

## Main definitions

* `Holdings.part`: what belongs to a component, or to none.
* `Request.KeepsTo`, `Script.KeepsTo`: calls and scripts that keep to a component.

## Main statements

* `Lot.answers_part`, `Lot.part_leaves`, `Lot.part_leaves_of_ne`: one call.
* `Script.Undergoes.part`: a run.
* `Holdings.perm_of_parts`: the parts tell everything but the order.
-/

namespace DevfilePush

open Conventions

/-- The component that labels name. -/
def Labels.owner? (labels : Labels) : Option String := labels.get? componentLabel

/-- What carries a selector's labels belongs to the component that the selector names. -/
theorem Labels.owner?_of_selects {selector labels : Labels} {component : String}
    (names : selector.owner? = some component) (selects : selector.selects labels = true) :
    labels.owner? = some component :=
  selects_iff.1 selects _ _ names

namespace Holdings

/-- What belongs to a component, or to none. -/
def part (h : Holdings) (owner : Option String) : Holdings where
  volumes := h.volumes.filter (·.labels.owner? = owner)
  containers := h.containers.filter (·.live.labels.owner? = owner)

variable {h k : Holdings} {owner : Option String} {component : String}

theorem mem_containers_part {c : Running} :
    c ∈ (h.part owner).containers ↔ c ∈ h.containers ∧ c.live.labels.owner? = owner := by
  simp [part]

theorem part_addVolume (v : Volume) :
    (h.addVolume v).part owner =
      if v.labels.owner? = owner then (h.part owner).addVolume v else h.part owner := by
  by_cases hv : v.labels.owner? = owner <;> simp [part, addVolume, hv]

theorem part_addContainer (c : Running) :
    (h.addContainer c).part owner =
      if c.live.labels.owner? = owner then (h.part owner).addContainer c else h.part owner := by
  by_cases hc : c.live.labels.owner? = owner <;> simp [part, addContainer, hc]

theorem part_removeContainer (id : String) :
    (h.removeContainer id).part owner = (h.part owner).removeContainer id := by
  simp only [part, removeContainer, List.filter_filter, Bool.and_comm]

/-- Removing what is not there removes nothing. -/
theorem removeContainer_of_absent {id : String} (absent : ∀ c ∈ h.containers, c.live.id ≠ id) :
    h.removeContainer id = h := by
  have hall : h.containers.filter (·.live.id ≠ id) = h.containers :=
    List.filter_eq_self.2 fun c hc => by simpa using absent c hc
  rw [removeContainer, hall]

theorem ids_part_sublist (h : Holdings) (owner : Option String) : (h.part owner).ids.Sublist h.ids :=
  List.filter_sublist.map _

theorem DistinctIds.part (ids : h.DistinctIds) (owner : Option String) : (h.part owner).DistinctIds :=
  ids.sublist (h.ids_part_sublist owner)

/-- What carries the labels of a selector is found in the part of the component that it names. -/
theorem volumesWith_part {selector : Labels} (names : selector.owner? = some component) :
    (h.part (some component)).volumesWith selector = h.volumesWith selector := by
  simp only [volumesWith, part, List.filter_filter]
  refine List.filter_congr fun v _ => ?_
  rw [Bool.and_eq_left_iff_imp, decide_eq_true_eq]
  exact Labels.owner?_of_selects names

theorem containersWith_part {selector : Labels} (names : selector.owner? = some component) :
    (h.part (some component)).containersWith selector = h.containersWith selector := by
  simp only [containersWith, part, List.filter_filter]
  refine List.filter_congr fun c _ => ?_
  rw [Bool.and_eq_left_iff_imp, decide_eq_true_eq]
  exact Labels.owner?_of_selects names

/-- A list is told up to its order by its members of each kind. -/
theorem perm_of_filter {α β : Type} [DecidableEq α] [DecidableEq β] {xs ys : List α} (kind : α → β)
    (same : ∀ b, xs.filter (kind · = b) = ys.filter (kind · = b)) : xs.Perm ys := by
  rw [List.perm_iff_count]
  intro a
  have hcount : ∀ zs : List α, zs.count a = (zs.filter (kind · = kind a)).count a := fun zs =>
    (List.count_filter (by simp)).symm
  rw [hcount xs, hcount ys, same]

/-- The parts tell all that is held, but not the order across components. -/
theorem perm_of_parts (same : ∀ owner, h.part owner = k.part owner) :
    h.volumes.Perm k.volumes ∧ h.containers.Perm k.containers :=
  ⟨perm_of_filter (·.labels.owner?) fun owner => congrArg volumes (same owner),
    perm_of_filter (·.live.labels.owner?) fun owner => congrArg containers (same owner)⟩

end Holdings

/-- Where the component holds `h`, the call selects, makes, inspects or removes only what belongs to
it. -/
def Request.KeepsTo (component : String) (h : Holdings) : Request → Prop
  | .listVolumes selector | .listContainers selector => selector.owner? = some component
  | .createVolume _ labels => labels.owner? = some component
  | .createContainer d => d.config.labels.owner? = some component
  | .removeContainer id | .inspectContainer id => ∃ c ∈ h.containers, c.live.id = id
  | .pullImage _ | .exec .. => True

/-! ## One call -/

namespace Lot

variable {commandLine : ContainerConfig → String} {lot : Lot} {exitCode : Int32} {h : Holdings}
  {r : Request} {component : String} {answer : Answer r.Reply}

theorem exists_replies_of_keepsTo (lot : Lot) (exitCode : Int32) (keeps : r.KeepsTo component h) :
    ∃ reply, lot.Replies exitCode h r reply := by
  refine exists_replies ?_
  rintro id rfl
  exact keeps

/-- A call that keeps to a component is answered as its fate says. -/
theorem answers_cases (keeps : r.KeepsTo component h) (answers : lot.Answers h r answer) :
    (∃ exitCode reply, lot.fate = .served exitCode ∧ answer = .reply reply ∧
      lot.Replies exitCode h r reply) ∨
    (∃ reason happened, lot.fate = .refused reason happened ∧ answer = .refused reason) ∨
    ∃ happened, lot.fate = .expired happened ∧ answer = .expired := by
  cases answer with
  | reply reply =>
    obtain ⟨exitCode, hfate, replies⟩ := answers
    exact .inl ⟨exitCode, reply, hfate, rfl, replies⟩
  | refused reason =>
    rcases answers with ⟨happened, hfate⟩ | ⟨exitCode, -, none⟩
    · exact .inr (.inl ⟨reason, happened, hfate, rfl⟩)
    · obtain ⟨reply, replies⟩ := exists_replies_of_keepsTo lot exitCode keeps
      exact absurd replies (none reply)
  | expired =>
    obtain ⟨happened, hfate⟩ := answers
    exact .inr (.inr ⟨happened, hfate, rfl⟩)

/-- The reply to a call that keeps to a component is told by the component's part. -/
theorem replies_part (ids : h.DistinctIds) (keeps : r.KeepsTo component (h.part (some component)))
    {reply : r.Reply} :
    lot.Replies exitCode (h.part (some component)) r reply ↔ lot.Replies exitCode h r reply := by
  cases r with
  | listVolumes selector => rw [Replies, Replies, Holdings.volumesWith_part keeps]
  | listContainers selector => rw [Replies, Replies, Holdings.containersWith_part keeps]
  | createVolume | pullImage | createContainer | removeContainer | exec => exact Iff.rfl
  | inspectContainer id =>
    constructor
    · rintro ⟨c, hc, hid, hd⟩
      exact ⟨c, (Holdings.mem_containers_part.1 hc).1, hid, hd⟩
    · rintro ⟨c, hc, hid, hd⟩
      obtain ⟨c', hc', hid'⟩ := keeps
      obtain rfl := ids.eq_of_id hc (Holdings.mem_containers_part.1 hc').1 (hid.trans hid'.symm)
      exact ⟨c, hc', hid, hd⟩

/-- A call that keeps to a component is answered as if the component's part were all. -/
theorem answers_part (ids : h.DistinctIds) (keeps : r.KeepsTo component (h.part (some component)))
    (answers : lot.Answers h r answer) : lot.Answers (h.part (some component)) r answer := by
  cases answer with
  | reply reply => simpa only [Answers, replies_part ids keeps] using answers
  | refused reason => simpa only [Answers, replies_part ids keeps] using answers
  | expired => exact answers

/-- What it leaves in the component's part is told by this part. -/
theorem part_leaves (keeps : r.KeepsTo component (h.part (some component))) :
    (lot.leaves commandLine h r).part (some component) =
      lot.leaves commandLine (h.part (some component)) r := by
  have heffect : (lot.effect commandLine h r).part (some component) =
      lot.effect commandLine (h.part (some component)) r := by
    cases r with
    | createVolume stem labels => exact (Holdings.part_addVolume _).trans (if_pos keeps)
    | createContainer d => exact (Holdings.part_addContainer _).trans (if_pos keeps)
    | removeContainer id => exact Holdings.part_removeContainer id
    | listVolumes | pullImage | listContainers | inspectContainer | exec => rfl
  unfold leaves
  split
  · exact heffect
  · rfl

/-- What belongs to others it leaves as it was. -/
theorem part_leaves_of_ne (ids : h.DistinctIds)
    (keeps : r.KeepsTo component (h.part (some component))) {owner : Option String}
    (other : owner ≠ some component) : (lot.leaves commandLine h r).part owner = h.part owner := by
  have heffect : (lot.effect commandLine h r).part owner = h.part owner := by
    cases r with
    | createVolume stem labels =>
      exact (Holdings.part_addVolume _).trans (if_neg fun howner => other (howner.symm.trans keeps))
    | createContainer d =>
      exact (Holdings.part_addContainer _).trans (if_neg fun howner => other (howner.symm.trans keeps))
    | removeContainer id =>
      obtain ⟨c, hc, rfl⟩ := keeps
      rw [Holdings.mem_containers_part] at hc
      refine (Holdings.part_removeContainer _).trans (Holdings.removeContainer_of_absent ?_)
      intro c' hc' hid
      rw [Holdings.mem_containers_part] at hc'
      obtain rfl := ids.eq_of_id hc'.1 hc.1 hid
      exact other (hc'.2.symm.trans hc.2)
    | listVolumes | pullImage | listContainers | inspectContainer | exec => rfl
  rcases lot.leaves_cases commandLine h r with hleaves | hleaves
  · rw [hleaves]
  · rw [hleaves, heffect]

end Lot

/-! ## A run -/

namespace Script

variable {α : Type} {commandLine : ContainerConfig → String} {component : String}

/-- Where the component holds `h`, all calls of the script keep to it, whatever falls to them. -/
def KeepsTo (commandLine : ContainerConfig → String) (component : String) : Script α → Holdings → Prop
  | .done _, _ => True
  | .fail _, _ => True
  | .log _ next, h => next.KeepsTo commandLine component h
  | .call request _ next, h => request.KeepsTo component h ∧
    ∀ (lot : Lot) answer, h.DistinctIds → (lot.leaves commandLine h request).DistinctIds →
      lot.Answers h request answer →
      (next answer).KeepsTo commandLine component (lot.leaves commandLine h request)

/-- After a call, the ids that are left to be drawn are still new. -/
theorem nodup_ids_leaves (commandLine : ContainerConfig → String) {lot : Lot} {rest : List Lot} {h : Holdings}
    (fresh : (h.ids ++ (lot :: rest).map (·.id)).Nodup) (r : Request) :
    ((lot.leaves commandLine h r).ids ++ rest.map (·.id)).Nodup := by
  have hcall := (lot.ids_leaves commandLine h r).append_right (rest.map (·.id))
  rw [List.append_assoc] at hcall
  exact fresh.sublist hcall

theorem distinctIds_of_nodup {ids : List String} {h : Holdings} (fresh : (h.ids ++ ids).Nodup) :
    h.DistinctIds :=
  (List.nodup_append.1 fresh).1

/-- A run of a script that keeps to a component goes as if the component's part were all, and leaves what
belongs to others as it was. -/
theorem Undergoes.part {s : Script α} {lots : List Lot} {before after : Holdings}
    {verdict : Except PushError α} (run : s.Undergoes commandLine lots before verdict after)
    (keeps : s.KeepsTo commandLine component (before.part (some component)))
    (fresh : (before.ids ++ lots.map (·.id)).Nodup) :
    s.Undergoes commandLine lots (before.part (some component)) verdict
        (after.part (some component)) ∧
      ∀ owner ≠ some component, after.part owner = before.part owner := by
  induction s generalizing lots before with
  | done | fail =>
    obtain ⟨rfl, rfl⟩ := run
    exact ⟨⟨rfl, rfl⟩, fun _ _ => rfl⟩
  | log event next ih => exact ih run keeps fresh
  | call request deadline next ih =>
    obtain ⟨lot, rest, answer, rfl, answers, hnext⟩ := run
    obtain ⟨hrequest, hkeeps⟩ := keeps
    have ids : before.DistinctIds := distinctIds_of_nodup fresh
    have fresh' := nodup_ids_leaves commandLine fresh request
    have hpart : (lot.leaves commandLine before request).part (some component) =
        lot.leaves commandLine (before.part (some component)) request := Lot.part_leaves hrequest
    have answers' := Lot.answers_part ids hrequest answers
    have ids' : (lot.leaves commandLine (before.part (some component)) request).DistinctIds := by
      rw [← hpart]
      exact (distinctIds_of_nodup fresh').part _
    have keeps' := hkeeps lot answer (ids.part _) ids' answers'
    rw [← hpart] at keeps'
    obtain ⟨hrun, hothers⟩ := ih answer hnext keeps' fresh'
    rw [hpart] at hrun
    refine ⟨⟨lot, rest, answer, rfl, answers', hrun⟩, fun owner other => ?_⟩
    rw [hothers owner other, Lot.part_leaves_of_ne ids hrequest other]

end Script

end DevfilePush
