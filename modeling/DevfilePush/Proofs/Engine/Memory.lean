import DevfilePush.Proofs.Engine.Runs
import DevfilePush.Proofs.Labels
import DevfilePush.Simulation.Course
import Mathlib.Data.Set.Finite.Lattice

/-!
# The engine in memory is an honest engine

What is stated of every honest engine holds of the engine in memory: what it replies it has done, and as
it counts its containers, no id is given twice. So the course that a script takes against it is one of
the script's runs.

## Main definitions

* `MemoryEngine.Numbered`: ids that are still to be given are not in use.
* `MemoryEngine.conduct`: how the engine in memory meets calls, if some fates befall them.

## Main statements

* `MemoryEngine.honest_conduct`, `MemoryEngine.keepsIds_conduct`
* `MemoryEngine.answers_conduct`, `MemoryEngine.faultless_serving`, `MemoryEngine.failsCleanly_failing`
* `MemoryEngine.runs_follow`: a course is a run.
-/

namespace DevfilePush.MemoryEngine

/-- What the engine holds. -/
def holdings (e : MemoryEngine) : Holdings := ⟨e.volumes, e.containers⟩

/-- The id of the container of a number. -/
def containerId (number : Nat) : String := "container-" ++ toString number

/-- No container has an id that is still to be given. -/
def Numbered (e : MemoryEngine) : Prop :=
  ∀ number, e.containerCount < number → ∀ r ∈ e.containers, r.live.id ≠ containerId number

/-- How the engine in memory meets calls whose fates are among the given ones. -/
def conduct (fates : Fate → Prop) : Conduct := fun before r answer after =>
  ∃ e : MemoryEngine, e.Numbered ∧ e.holdings = before ∧
    ∃ fate, fates fate ∧ (e.meet r fate).1 = answer ∧ (e.meet r fate).2.holdings = after

/-- How the engine in memory meets calls that anything may befall. -/
abbrev faulty : Conduct := conduct fun _ => True

/-- How the engine in memory meets calls that are all served. -/
abbrev serving : Conduct := conduct fun fate => ∃ exitCode, fate = .served exitCode

/-- How the engine in memory meets calls that happen only if they are replied. -/
abbrev failing : Conduct :=
  conduct fun fate => (∃ exitCode, fate = .served exitCode) ∨ fate.happens = false

/-! ## Ids -/

theorem containerId_injective {m n : Nat} (h : containerId m = containerId n) : m = n := by
  rw [containerId, containerId, ← String.toList_inj, String.toList_append, String.toList_append] at h
  exact toString_nat_injective (String.toList_inj.1 (List.append_cancel_left h))

theorem numbered_empty : empty.Numbered := by
  intro number _ r hr
  cases hr

/-- Ids still to be given stay free, whatever is performed. -/
theorem Numbered.perform {e : MemoryEngine} (h : e.Numbered) (exitCode : Int32) (r : Request) :
    (e.perform exitCode r).2.Numbered := by
  cases r with
  | createContainer d =>
    intro number hnumber c hc
    change e.containerCount + 1 < number at hnumber
    rcases List.mem_append.1 hc with hc | hc
    · exact h number (by omega) c hc
    · rw [List.mem_singleton.1 hc]
      intro hid
      have := containerId_injective hid
      omega
  | removeContainer id => exact fun number hnumber c hc => h number hnumber c (List.mem_of_mem_filter hc)
  | _ => exact h

theorem Numbered.meet {e : MemoryEngine} (h : e.Numbered) (r : Request) (fate : Fate) :
    (e.meet r fate).2.Numbered := by
  rw [meet_snd, afterCall]
  split
  · exact h.perform 0 r
  · exact h

/-- A container that is made has an id of its own. -/
theorem distinctIds_perform {e : MemoryEngine} (h : e.Numbered) (ids : e.holdings.DistinctIds)
    (exitCode : Int32) (r : Request) : (e.perform exitCode r).2.holdings.DistinctIds := by
  cases r with
  | createContainer d =>
    change ((e.containers ++ [e.nextContainer d]).map (·.live.id)).Nodup
    rw [List.map_append, List.nodup_append]
    refine ⟨ids, List.nodup_singleton _, ?_⟩
    intro id hid id' hid'
    obtain ⟨c, hc, rfl⟩ := List.mem_map.1 hid
    rw [List.mem_singleton.1 hid']
    exact h (e.containerCount + 1) (Nat.lt_succ_self _) c hc
  | removeContainer id => exact ids.sublist (List.filter_sublist.map _)
  | _ => exact ids

/-- Every holding is that of an engine in memory whose ids still to be given are free. -/
theorem exists_numbered (h : Holdings) : ∃ e : MemoryEngine, e.Numbered ∧ e.holdings = h := by
  have hfinite : Set.Finite {number | containerId number ∈ h.containers.map (·.live.id)} :=
    (List.finite_toSet _).preimage fun _ _ _ _ hid => containerId_injective hid
  obtain ⟨bound, hbound⟩ := hfinite.bddAbove
  refine ⟨⟨h.volumes, h.containers, 0, bound⟩, ?_, rfl⟩
  intro number hnumber r hr hid
  have hused : containerId number ∈ h.containers.map (·.live.id) := List.mem_map.2 ⟨r, hr, hid⟩
  have hle : number ≤ bound := hbound hused
  exact absurd hnumber (Nat.not_lt.2 hle)

/-! ## Honesty -/

/-- What is performed is granted, with the reply that is given. -/
theorem grants_perform {e after : MemoryEngine} {exitCode : Int32} {r : Request} {reply : r.Reply}
    (h : e.perform exitCode r = (.ok reply, after)) : e.holdings.Grants r reply after.holdings := by
  cases r with
  | listVolumes selector =>
    cases h
    exact ⟨.refl _, rfl⟩
  | createVolume stem labels =>
    cases h
    exact ⟨rfl, rfl⟩
  | pullImage image =>
    cases h
    rfl
  | createContainer d =>
    cases h
    exact ⟨e.nextContainer d, rfl, rfl, rfl, rfl⟩
  | removeContainer id =>
    cases h
    rfl
  | listContainers selector =>
    cases h
    refine ⟨.of_eq ?_, rfl⟩
    exact List.filter_map
  | inspectContainer id =>
    obtain ⟨hinspect, hafter⟩ := Prod.mk.inj h
    unfold inspect at hinspect
    split at hinspect
    · cases hinspect
      have hfound := ‹e.containers.find? _ = some _›
      refine ⟨⟨_, List.mem_of_find?_eq_some hfound, ?_, rfl⟩, congrArg holdings hafter.symm⟩
      simpa using List.find?_some hfound
    · cases hinspect
  | exec id argv attach =>
    cases h
    rfl

/-- Only an inspection can be refused by itself, of a container that is not there. -/
theorem refused_perform {e after : MemoryEngine} {exitCode : Int32} {r : Request} {reason : String}
    (h : e.perform exitCode r = (.error reason, after)) :
    after = e ∧ ∃ id, r = .inspectContainer id ∧ ∀ c ∈ e.containers, c.live.id ≠ id := by
  cases r with
  | inspectContainer id =>
    obtain ⟨hinspect, hafter⟩ := Prod.mk.inj h
    unfold inspect at hinspect
    split at hinspect
    · cases hinspect
    · have hnone := List.find?_eq_none.1 ‹e.containers.find? _ = none›
      refine ⟨hafter.symm, id, rfl, ?_⟩
      intro c hc hid
      have := hnone c hc
      simp [hid] at this
  | _ => cases h

/-- A call that may have happened changed nothing or was granted. -/
theorem effect_afterCall (e : MemoryEngine) (r : Request) (happened : Bool) :
    (e.afterCall r happened).holdings = e.holdings ∨
      ∃ reply, e.holdings.Grants r reply (e.afterCall r happened).holdings := by
  cases happened with
  | false => exact .inl rfl
  | true =>
    cases hperform : e.perform 0 r with
    | mk outcome after =>
      rw [afterCall, if_pos rfl, hperform]
      cases outcome with
      | ok reply => exact .inr ⟨reply, grants_perform hperform⟩
      | error reason =>
        left
        rw [(refused_perform hperform).1]

theorem honest_conduct (fates : Fate → Prop) : (conduct fates).Honest where
  granted := by
    rintro before r reply after ⟨e, -, rfl, fate, -, hanswer, rfl⟩
    cases fate with
    | served exitCode =>
      simp only [meet] at hanswer ⊢
      split at hanswer
      · cases hanswer
        exact grants_perform ‹_›
      · cases hanswer
    | refused | expired => cases hanswer
  effect := by
    rintro before r answer after ⟨e, -, rfl, fate, -, -, rfl⟩
    rw [meet_snd]
    exact effect_afterCall e r fate.happens

theorem keepsIds_conduct (fates : Fate → Prop) : (conduct fates).KeepsIds := by
  rintro before r answer after ⟨e, hnumbered, rfl, fate, -, -, rfl⟩ ids
  rw [meet_snd, afterCall]
  split
  · exact distinctIds_perform hnumbered ids 0 r
  · exact ids

/-- Where calls may be served, the engine in memory answers them all. -/
theorem answers_conduct {fates : Fate → Prop} (served : fates (.served 0)) (before : Holdings)
    (r : Request) : ∃ answer after, conduct fates before r answer after := by
  obtain ⟨e, numbered, hbefore⟩ := exists_numbered before
  exact ⟨_, _, e, numbered, hbefore, .served 0, served, rfl, rfl⟩

/-- If all calls are served, the engine in memory is without faults. -/
theorem faultless_serving : serving.Faultless := by
  rintro before r answer after ⟨e, -, rfl, -, ⟨exitCode, rfl⟩, rfl, -⟩ ⟨reply, after', granted⟩
  simp only [meet]
  split
  · exact ⟨_, rfl⟩
  · obtain ⟨-, id, rfl, hnone⟩ := refused_perform ‹e.perform exitCode r = _›
    obtain ⟨⟨c, hc, hid, -⟩, -⟩ := granted
    exact absurd hid (hnone c hc)

/-- If calls happen only when they are served, those that fail have no effect. -/
theorem failsCleanly_failing : failing.FailsCleanly := by
  rintro before r answer after ⟨e, -, rfl, fate, hfate, rfl, rfl⟩ fails
  rcases hfate with ⟨exitCode, rfl⟩ | hfate
  · cases hperform : e.perform exitCode r with
    | mk outcome after =>
      simp only [meet, hperform] at fails ⊢
      cases outcome with
      | ok reply => exact fails.elim
      | error reason => exact congrArg holdings (refused_perform hperform).1
  · rw [meet_snd, hfate]
    rfl

/-! ## Courses -/

/-- A course that meets only some fates is a run against an engine whose calls may meet these. -/
theorem runs_follow {α : Type} {fates : Fate → Prop} (served : fates (.served 0)) {e : MemoryEngine}
    (numbered : e.Numbered) {given : List Fate} (among : ∀ fate ∈ given, fates fate) (s : Script α) :
    s.Runs (conduct fates) e.holdings (s.follow e given).happenings (s.follow e given).verdict
      (s.follow e given).engine.holdings := by
  induction s generalizing e given with
  | done | fail => exact ⟨rfl, rfl, rfl⟩
  | log event next ih => exact ⟨_, rfl, ih numbered among⟩
  | call request deadline next ih =>
    have hfate : fates (given.headD (.served 0)) := by
      cases given with
      | nil => exact served
      | cons fate rest => exact among fate List.mem_cons_self
    have hrest := ih (e.meet request (given.headD (.served 0))).1
      (numbered.meet request (given.headD (.served 0)))
      fun fate h => among fate (List.mem_of_mem_tail h)
    exact ⟨_, _, _, ⟨e, numbered, rfl, _, hfate, rfl, rfl⟩, rfl, hrest⟩

/-- A course, whatever befalls its calls, is a run that ends as the course does. -/
theorem runs_follow_faulty {α : Type} {e : MemoryEngine} (numbered : e.Numbered) {given : List Fate}
    {s : Script α} {verdict : Except PushError α} (ended : (s.follow e given).verdict = verdict) :
    s.Runs faulty e.holdings (s.follow e given).happenings verdict
      (s.follow e given).engine.holdings := by
  rw [← ended]
  exact runs_follow trivial numbered (fun _ _ => trivial) s

/-- Ids still to be given stay free along a course. -/
theorem Numbered.follow {α : Type} {e : MemoryEngine} (h : e.Numbered) (given : List Fate)
    (s : Script α) : (s.follow e given).engine.Numbered := by
  induction s generalizing e given with
  | done | fail => exact h
  | log event next ih => exact ih h given
  | call request deadline next ih => exact ih _ (h.meet request _) given.tail

end DevfilePush.MemoryEngine
