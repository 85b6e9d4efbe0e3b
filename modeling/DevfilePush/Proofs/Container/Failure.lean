import DevfilePush.Proofs.Container.Realize
import DevfilePush.Proofs.Container.Revision

/-!
# Where reconciling containers is given up

Reconciling a list of containers is given up at one of them: those before it were reconciled and those
after it were not begun. If calls that fail have no effect, the container where it is given up is as it
was, unless its old container was removed and a new one could then not be fetched or created.

## Main definitions

* `Happening.Removes`, `Happening.EndsStarting`: a container was removed, and none could be started.

## Main statements

* `Blueprint.realizeEach_failed`, `Blueprint.realize_failed`: the container at which it is given up.
* `Blueprint.realizeEach_halfway`: what is left of the aliases before and after it.
* `Blueprint.Realizing.failed`: what is left of its own alias.
* `Blueprint.Realizing.looks_of_replied`: where no call failed, nothing was changed either.
-/

namespace DevfilePush

/-- Among the calls is one that removed a container. -/
def Happening.Removes (trace : List Happening) : Prop :=
  ∃ id, Happening.answered (.removeContainer id) (.reply ()) ∈ trace

/-- The calls end with one that failed to fetch an image or to create a container. -/
def Happening.EndsStarting (calls : List Happening) (image : String) : Prop :=
  ∃ (earlier : List Happening) (request : Request) (answer : Answer request.Reply),
    calls = earlier ++ [.answered request answer] ∧ answer.Fails ∧
      (request = .pullImage image ∨ ∃ d, request = .createContainer d)

namespace Happening

theorem EndsStarting.cons {calls : List Happening} {image : String} (h : EndsStarting calls image)
    (x : Happening) : EndsStarting (x :: calls) image := by
  obtain ⟨earlier, request, answer, rfl, fails, hrequest⟩ := h
  exact ⟨x :: earlier, request, answer, rfl, fails, hrequest⟩

/-- Only calls can have removed a container. -/
theorem removes_calls {trace : List Happening} : Removes (calls trace) ↔ Removes trace := by
  simp [Removes, calls, isCall]

end Happening

variable {ctx : Context} {engine : Conduct} {before after : Holdings} {calls : List Happening}
  {c : Component} {desired : Definition} {b : Blueprint} {error : PushError}

/-- If starting a container fails without effect, nothing has changed, and fetching or creating it was
what failed. -/
theorem Starting.failed (cleanly : engine.FailsCleanly)
    (starting : Starting engine c desired before calls (.error error) after) :
    after = before ∧ Happening.EndsStarting calls c.image ∧ ¬ Happening.Removes calls := by
  cases starting with
  | @pullFails answer error fails =>
    refine ⟨rfl, ⟨[], .pullImage c.image, answer, rfl, fails, .inl rfl⟩, ?_⟩
    rintro ⟨id, hmem⟩
    simp at hmem
  | @createFails answer error after fails met =>
    refine ⟨cleanly met fails, ⟨[_], .createContainer desired, answer, rfl, fails, .inr ⟨_, rfl⟩⟩, ?_⟩
    rintro ⟨id, hmem⟩
    simp at hmem

namespace Blueprint.Realizing

/-- Where an alias is given up, its containers are as they were, or its only container was removed and
no new one could be started. -/
theorem failed (cleanly : engine.FailsCleanly)
    (realizing : b.Realizing ctx engine c before calls (.error error) after) :
    (¬ Happening.Removes calls ∧ after = before) ∨
      (Happening.Removes calls ∧ Happening.EndsStarting calls c.image ∧
        ∃ old, before.ofAlias ctx.component c.aliasName = [old] ∧
          after = before.removeContainer old.live.id) := by
  generalize hverdict : Except.error error = verdict at realizing
  cases realizing with
  | undesired =>
    left
    exact ⟨by simp [Happening.Removes], rfl⟩
  | listFails | conflict =>
    left
    exact ⟨by simp [Happening.Removes], rfl⟩
  | @missing desired _ none calls started after starting =>
    left
    cases started with
    | ok => cases hverdict
    | error e =>
      obtain ⟨hafter, -, hnone⟩ := starting.failed cleanly
      exact ⟨by simpa [Happening.Removes] using hnone, hafter⟩
  | @found desired _ old only calls _ after judging =>
    cases judging with
    | inspectFails =>
      left
      exact ⟨by simp [Happening.Removes], rfl⟩
    | kept => cases hverdict
    | @removeFails _ _ _ _ answer _ _ fails met =>
      left
      refine ⟨?_, cleanly met fails⟩
      rintro ⟨id, hmem⟩
      simp only [List.mem_cons, List.not_mem_nil, or_false] at hmem
      rcases hmem with hmem | hmem | hmem
      · cases hmem
      · cases hmem
      · cases hmem
        exact fails
    | @removed _ _ _ _ calls started after starting =>
      right
      cases started with
      | ok => cases hverdict
      | error e =>
        obtain ⟨hafter, hends, -⟩ := starting.failed cleanly
        exact ⟨⟨old.live.id, by simp⟩, ((hends.cons _).cons _).cons _, old, only, hafter⟩

/-- Where an alias is given up although every call was replied, it was only looked at. -/
theorem looks_of_replied (replied : ∀ x ∈ calls, ¬ x.Fails)
    (realizing : b.Realizing ctx engine c before calls (.error error) after) :
    ∀ r ∈ calls.filterMap (·.call?), r.looks = true := by
  generalize hverdict : Except.error error = verdict at realizing
  have hstarting : ∀ {desired middle calls after} {e : PushError},
      Starting engine c desired middle calls (.error e) after → ∃ x ∈ calls, x.Fails := by
    intro desired middle calls after e starting
    cases starting with
    | pullFails fails => exact ⟨_, List.mem_cons_self, fails⟩
    | createFails fails met => exact ⟨_, List.mem_cons_of_mem _ List.mem_cons_self, fails⟩
  cases realizing with
  | undesired => simp
  | listFails _ fails => exact absurd fails (replied _ List.mem_cons_self)
  | conflict => simp [Happening.call?, Request.looks]
  | @missing desired _ none calls started after starting =>
    cases started with
    | ok => cases hverdict
    | error e =>
      obtain ⟨x, hx, fails⟩ := hstarting starting
      exact absurd fails (replied x (List.mem_cons_of_mem _ hx))
  | @found desired _ old only calls _ after judging =>
    cases judging with
    | inspectFails fails => exact absurd fails (replied _ (List.mem_cons_of_mem _ List.mem_cons_self))
    | kept => cases hverdict
    | removeFails _ _ _ fails =>
      have hmem := replied _ (List.mem_cons_of_mem _ (List.mem_cons_of_mem _ List.mem_cons_self))
      exact absurd fails hmem
    | @removed _ _ _ _ calls started after starting =>
      cases started with
      | ok => cases hverdict
      | error e =>
        obtain ⟨x, hx, fails⟩ := hstarting starting
        have hmem := replied x (by simp [hx])
        exact absurd fails hmem

end Blueprint.Realizing

/-- **Given up.** A list of containers that is not reconciled to its end is given up at one of them,
after those before it were reconciled. -/
theorem Blueprint.realizeEach_failed {components : List Component} {trace : List Happening}
    (run : (b.realizeEach ctx components).Runs engine before trace (.error error) after) :
    ∃ done here rest records middle t own, components = done ++ here :: rest ∧
      (b.realizeEach ctx done).Runs engine before t (.ok records) middle ∧
      (b.realizeOne ctx here).Runs engine middle own (.error error) after ∧ trace = t ++ own := by
  induction components generalizing before trace with
  | nil => cases run.2.1
  | cons c rest ih =>
    rcases Script.runs_bind_iff.1 run with ⟨_, herror, hfirst⟩ | ⟨record, m₁, t₁, t₂, hfirst, hrest, rfl⟩
    · cases herror
      exact ⟨[], c, rest, [], before, [], trace, rfl, ⟨rfl, rfl, rfl⟩, hfirst, rfl⟩
    obtain ⟨t₃, rfl, hothers⟩ := Script.runs_note_bind.1 hrest
    obtain ⟨inner, hothers, hinner⟩ := Script.runs_bind_done.1 hothers
    cases inner with
    | ok => cases hinner
    | error e =>
      cases hinner
      obtain ⟨done, here, later, records, middle, t, own, rfl, hdone, hhere, rfl⟩ := ih hothers
      refine ⟨c :: done, here, later, record :: records, middle,
        t₁ ++ .logged (.reconciled ctx.component record) :: t, own, rfl, ?_, hhere, by simp⟩
      exact runs_realizeEach_cons_ok.2 ⟨record, records, m₁, t₁, t, hfirst, hdone, rfl, rfl⟩

/-- Containers that are accepted are given up at one of them. -/
theorem Blueprint.realize_failed (accepted : checkComponents b.components = .ok ())
    {trace : List Happening} (run : (b.realize ctx).Runs engine before trace (.error error) after) :
    ∃ done here rest records middle t own, b.components = done ++ here :: rest ∧
      (b.realizeEach ctx done).Runs engine before t (.ok records) middle ∧
      (b.realizeOne ctx here).Runs engine middle own (.error error) after ∧ trace = t ++ own := by
  rcases Script.runs_bind_iff.1 run with ⟨_, -, hcheck⟩ | ⟨_, m, t₁, t₂, hcheck, hrest, rfl⟩
  · have herror := (Script.runs_ofExcept.1 hcheck).2.1
    rw [accepted] at herror
    cases herror
  obtain ⟨rfl, -, rfl⟩ := Script.runs_ofExcept.1 hcheck
  obtain ⟨inner, heach, hinner⟩ := Script.runs_bind_done.1 hrest
  cases inner with
  | ok => cases hinner
  | error e =>
    cases hinner
    exact realizeEach_failed heach

/-- **Half way.** Where some containers are reconciled and then one more is begun, those before it are
what they have to be, the aliases after it are as they were, and so was its own alias until then. -/
theorem Blueprint.realizeEach_halfway (honest : engine.Honest) (keepsIds : engine.KeepsIds)
    (ids : before.DistinctIds) {done rest : List Component} {here : Component}
    {records : List ContainerRecord} {middle : Holdings} {t own : List Happening}
    {verdict : Except PushError ContainerRecord}
    (nodup : ((done ++ here :: rest).map (·.aliasName)).Nodup) (declared : here ∈ b.components)
    (hdone : (b.realizeEach ctx done).Runs engine before t (.ok records) middle)
    (hhere : (b.realizeOne ctx here).Runs engine middle own verdict after) :
    (∀ c ∈ done, ∃ desired, b.desired ctx c = .ok desired ∧
      ∃ r, after.ofAlias ctx.component c.aliasName = [r] ∧ desired.agrees r.definition = true) ∧
    (∀ c ∈ rest, after.ofAlias ctx.component c.aliasName =
      before.ofAlias ctx.component c.aliasName) ∧
    middle.ofAlias ctx.component here.aliasName = before.ofAlias ctx.component here.aliasName := by
  rw [List.map_append, List.map_cons, List.nodup_append, List.nodup_cons] at nodup
  obtain ⟨hnodup, ⟨hrest, -⟩, hdisjoint⟩ := nodup
  have hnotDone : ∀ a ∈ here.aliasName :: rest.map (·.aliasName), a ∉ done.map (·.aliasName) := by
    intro a ha h
    exact hdisjoint a h a ha rfl
  obtain ⟨htells, hsame⟩ := realizeEach_since honest keepsIds before ids hnodup (fun _ _ => rfl) hdone
  obtain ⟨gone, made, hrevised⟩ :=
    (realizeOne_realizing honest hhere).revised honest (hdone.distinctIds keepsIds ids) declared
  have hother : ∀ a, a ≠ here.aliasName →
      after.ofAlias ctx.component a = middle.ofAlias ctx.component a := by
    intro a ha
    exact hrevised.ofAlias_of_not_mem (mt List.mem_singleton.1 ha)
  refine ⟨?_, ?_, hsame.containers _ (hnotDone _ List.mem_cons_self)⟩
  · -- before
    intro c hc
    obtain ⟨record, -, desired, hdesired, halias, tells⟩ := exists_of_forall₂ htells c hc
    obtain ⟨r, hr, -, hagrees, -⟩ := tells.running
    have hne : c.aliasName ≠ here.aliasName := by
      intro h
      exact hnotDone _ List.mem_cons_self (h ▸ List.mem_map_of_mem hc)
    refine ⟨desired, hdesired, r, ?_, hagrees⟩
    rw [hother _ hne, ← halias]
    exact hr
  · -- after
    intro c hc
    have hmap : c.aliasName ∈ rest.map (·.aliasName) := List.mem_map_of_mem hc
    have hne : c.aliasName ≠ here.aliasName := by
      intro h
      exact hrest (h ▸ hmap)
    rw [hother _ hne]
    exact hsame.containers _ (hnotDone _ (List.mem_cons_of_mem _ hmap))

end DevfilePush
