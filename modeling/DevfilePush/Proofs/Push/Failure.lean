import DevfilePush.Proofs.Container.Failure
import DevfilePush.Proofs.Push.Frame
import DevfilePush.Proofs.Push.Stopping

/-!
# What a push that fails leaves

A push can fail before it asks for anything, while it resolves volumes, at any one of its containers, or
among its commands. Where it failed tells what it has left: no call comes after the one that failed, and
if calls that fail have no effect, the containers before the one where it was given up are as they were
declared, those after it are as they were, and that one is as it was or, after its old container was
removed, absent.

## Main definitions

* `Push.FailsBeforehand`, `Push.FailsResolving`, `Push.FailsReconciling`, `Push.FailsExecuting`: where a
  push failed.
* `Push.HalfDone`: what it has left if it was given up at one of its containers.
* `Push.Failure`: all that is told of a push that failed.

## Main statements

* `Push.FailsReconciling.halfDone`: what is left at each container where a push is given up.
* `Push.left_by_failure`: what is told of a push that failed.
-/

namespace DevfilePush.Push

/-- A push failed before it asked for anything. -/
def FailsBeforehand (before : Holdings) (trace : List Happening) (after : Holdings) : Prop :=
  Happening.calls trace = [] ∧ after = before

/-- A push failed while it resolved its volumes. -/
def FailsResolving (p : Push) (config : ValidConfig) (listing : UrlListing) (engine : Conduct)
    (before : Holdings) (trace : List Happening) (error : PushError) (after : Holdings) : Prop :=
  ∃ own, trace = p.opening listing ++ own ∧
    (resolveVolumes (p.context config) p.components p.commands.run.isSome).Runs engine before own
      (.error error) after

/-- A push failed at the container `here`, after those of `done` were reconciled and before those of
`rest` were begun; `own` is what happened for that container. -/
structure FailsReconciling (p : Push) (config : ValidConfig) (listing : UrlListing) (engine : Conduct)
    (before : Holdings) (trace : List Happening) (error : PushError) (after : Holdings)
    (b : Blueprint) (done : List Component) (here : Component) (rest : List Component)
    (own : List Happening) : Prop where
  passed : p.check = .ok ()
  split : p.components = done ++ here :: rest
  reached : ∃ urls names resolved t t' records middle, listing.urls = .ok urls ∧
    b = p.blueprint urls names ∧ trace = p.opening listing ++ (t ++ (t' ++ own)) ∧
    (resolveVolumes (p.context config) p.components p.commands.run.isSome).Runs engine before t
      (.ok names) resolved ∧
    (b.realizeEach (p.context config) done).Runs engine resolved t' (.ok records) middle ∧
    (b.realizeOne (p.context config) here).Runs engine middle own (.error error) after

/-- A push failed after its containers were reconciled. -/
def FailsExecuting (p : Push) (config : ValidConfig) (engine : Conduct) (trace : List Happening)
    (error : PushError) (after : Holdings) : Prop :=
  ∃ containers settled earlier own, trace = earlier ++ own ∧
    (p.execution config containers).Runs engine settled own (.error error) after

/-- What is left by a push that was given up at the container `here`. -/
structure HalfDone (p : Push) (config : ValidConfig) (before : Holdings) (trace : List Happening)
    (error : PushError) (after : Holdings) (b : Blueprint) (done : List Component) (here : Component)
    (rest : List Component) (own : List Happening) : Prop where
  /-- Each container before it is the only one of its alias and agrees with what it has to be running. -/
  earlier : ∀ c ∈ done, ∃ desired, b.desired (p.context config) c = .ok desired ∧
    ∃ r, after.ofAlias p.component c.aliasName = [r] ∧ desired.agrees r.definition = true
  /-- Every alias after it has the containers that it had. -/
  later : ∀ c ∈ rest,
    after.ofAlias p.component c.aliasName = before.ofAlias p.component c.aliasName
  /-- No command was executed. -/
  noCommand : ∀ r ∈ trace.filterMap (·.call?), r.executes = false
  /-- Where no container was removed, the alias has the containers that it had. -/
  kept : ¬ Happening.Removes own →
    after.ofAlias p.component here.aliasName = before.ofAlias p.component here.aliasName
  /-- Where its only container was removed, the alias has none, and what failed was to fetch the image
  or to create the container. -/
  removed : Happening.Removes own →
    (∃ old, before.ofAlias p.component here.aliasName = [old]) ∧
      after.ofAlias p.component here.aliasName = [] ∧
      Happening.EndsStarting (Happening.calls own) here.image
  /-- A stale URL and several containers of an alias are found out by looking. -/
  looked : error.category = .portMapping ∨ error.category = .conflict →
    ∀ r ∈ own.filterMap (·.call?), r.looks = true

/-- What is told of a push that failed. -/
structure Failure (p : Push) (config : ValidConfig) (listing : UrlListing) (engine : Conduct)
    (before : Holdings) (trace : List Happening) (error : PushError) (after : Holdings) : Prop where
  /-- Nothing is called after a call that failed, and the error tells of that call. -/
  last : ∀ (earlier : List Happening) (request : Request) (answer : Answer request.Reply)
    (later : List Happening), trace = earlier ++ .answered request answer :: later →
      (Happening.answered request answer).Fails →
        Happening.calls later = [] ∧ (p.context config).Reports p.Has request answer error
  /-- It failed in one of four places. -/
  somewhere : FailsBeforehand before trace after ∨
    p.FailsResolving config listing engine before trace error after ∨
    (∃ b done here rest own,
      p.FailsReconciling config listing engine before trace error after b done here rest own) ∨
    p.FailsExecuting config engine trace error after
  /-- If that was while it resolved volumes, it asked for nothing but volumes. -/
  onVolumes : p.FailsResolving config listing engine before trace error after →
    ∀ r ∈ trace.filterMap (·.call?), r.onVolumes = true
  /-- If that was at one of its containers, it left its work half done. -/
  halfDone : ∀ b done here rest own,
    p.FailsReconciling config listing engine before trace error after b done here rest own →
      p.HalfDone config before trace error after b done here rest own

variable {p : Push} {config : ValidConfig} {listing : UrlListing} {engine : Conduct}
  {before after : Holdings} {trace : List Happening} {error : PushError}

/-- A push that fails does so in one of these places. -/
theorem fails_somewhere (run : (p.script config listing).Runs engine before trace (.error error) after) :
    FailsBeforehand before trace after ∨
      p.FailsResolving config listing engine before trace error after ∨
      (∃ b done here rest own,
        p.FailsReconciling config listing engine before trace error after b done here rest own) ∨
      p.FailsExecuting config engine trace error after := by
  generalize hverdict : Except.error error = verdict at run
  cases script_proceeding run with
  | checking => exact .inl ⟨rfl, rfl⟩
  | loading => exact .inl ⟨calls_opening p listing, rfl⟩
  | resolving _ _ failed =>
    cases hverdict
    exact .inr (.inl ⟨_, rfl, failed⟩)
  | @reconciling passed urls loaded t names _ resolved own _ after failed =>
    cases hverdict
    obtain ⟨done, here, rest, records, middle, t', own, hsplit, hdone, hhere, rfl⟩ :=
      Blueprint.realize_failed (check_ok_iff.1 passed).1 failed
    exact .inr (.inr (.inl ⟨p.blueprint urls names, done, here, rest, own, passed, hsplit,
      urls, names, _, t, t', records, middle, loaded, rfl, rfl, resolved, hdone, hhere⟩))
  | @executing _ _ _ t _ _ _ t' containers settled _ own _ after ended =>
    cases hverdict
    exact .inr (.inr (.inr ⟨containers, settled, p.opening listing ++ (t ++ t'), own, by simp, ended⟩))

/-- A push that failed while it resolved its volumes asked for nothing else. -/
theorem FailsResolving.onVolumes
    (fails : p.FailsResolving config listing engine before trace error after) :
    ∀ r ∈ trace.filterMap (·.call?), r.onVolumes = true := by
  obtain ⟨own, rfl, hrun⟩ := fails
  rw [requests_opening_append]
  exact hrun.requests (resolveVolumes_asks _ _)

/-- A push that failed at one of its containers executed nothing. -/
theorem FailsReconciling.executes_nothing {b : Blueprint} {done : List Component} {here : Component}
    {rest : List Component} {own : List Happening}
    (fails : p.FailsReconciling config listing engine before trace error after b done here rest own) :
    ∀ r ∈ trace.filterMap (·.call?), r.executes = false := by
  obtain ⟨urls, names, resolved, t, t', records, middle, -, rfl, rfl, hresolve, hdone, hhere⟩ :=
    fails.reached
  intro r hr
  rw [requests_opening_append, List.filterMap_append, List.filterMap_append, List.mem_append,
    List.mem_append] at hr
  rcases hr with hr | hr | hr
  · exact Request.executes_of_onVolumes (hresolve.requests (resolveVolumes_asks _ _) r hr)
  · exact hdone.requests (Blueprint.realizeEach_asks _) r hr
  · exact hhere.requests Blueprint.realizeOne_asks r hr

/-- A stale URL and several containers of an alias are found out by looking. -/
theorem realizeOne_looks (honest : engine.Honest) {b : Blueprint} {ctx : Context} {c : Component}
    (run : (b.realizeOne ctx c).Runs engine before trace (.error error) after)
    (hcategory : error.category = .portMapping ∨ error.category = .conflict) :
    ∀ r ∈ trace.filterMap (·.call?), r.looks = true := by
  have hstops : (b.realizeOne ctx c).Stops (ctx.Reports fun _ => False) := realizeOne_stops
  have hreplied : ∀ x ∈ trace, ¬ x.Fails := by
    refine hstops.replied run ?_ ?_
    · rcases hcategory with h | h <;> simp [h]
    · rcases hcategory with h | h <;> simp [h]
  rw [← Happening.filterMap_call?_calls]
  exact (Blueprint.realizeOne_realizing honest run).looks_of_replied fun x hx =>
    hreplied x (List.mem_of_mem_filter hx)

/-- **Half done.** What a push leaves that was given up at one of its containers. -/
theorem FailsReconciling.halfDone (honest : engine.Honest) (keepsIds : engine.KeepsIds)
    (cleanly : engine.FailsCleanly) (ids : before.DistinctIds) {b : Blueprint} {done : List Component}
    {here : Component} {rest : List Component} {own : List Happening}
    (fails : p.FailsReconciling config listing engine before trace error after b done here rest own) :
    p.HalfDone config before trace error after b done here rest own := by
  obtain ⟨urls, names, resolved, t, t', records, middle, -, rfl, -, hresolve, hdone, hhere⟩ :=
    fails.reached
  obtain ⟨-, -, nodup⟩ := checkComponents_ok_iff.1 (check_ok_iff.1 fails.passed).1
  rw [fails.split] at nodup
  have hmem : here ∈ p.components := by simp [fails.split]
  -- resolving volumes leaves all containers
  have hstart : ∀ a, resolved.ofAlias p.component a = before.ofAlias p.component a := fun a =>
    Holdings.containersWith_congr (resolveVolumes_ok honest hresolve).2.containers _
  obtain ⟨hearlier, hlater, hhereStart⟩ := Blueprint.realizeEach_halfway honest keepsIds
    (hresolve.distinctIds keepsIds ids) nodup hmem hdone hhere
  have hfailed := (Blueprint.realizeOne_realizing honest hhere).failed cleanly
  refine ⟨hearlier, ?_, fails.executes_nothing, ?_, ?_, realizeOne_looks honest hhere⟩
  · -- later
    intro c hc
    exact (hlater c hc).trans (hstart _)
  · -- kept
    intro hkept
    rcases hfailed with ⟨-, rfl⟩ | ⟨hremoves, -⟩
    · exact hhereStart.trans (hstart _)
    · exact absurd (Happening.removes_calls.1 hremoves) hkept
  · -- removed
    intro hremoved
    rcases hfailed with ⟨hkept, -⟩ | ⟨-, hends, old, hold, rfl⟩
    · exact absurd (Happening.removes_calls.2 hremoved) hkept
    · refine ⟨⟨old, ?_⟩, Holdings.ofAlias_removeContainer_self hold, hends⟩
      exact (hhereStart.trans (hstart _)).symm.trans hold

/-- **A push that fails.** If calls that fail have no effect, a push that fails, wherever that is and
whatever the engine held, has left what is told of its failure. -/
theorem left_by_failure (honest : engine.Honest) (keepsIds : engine.KeepsIds)
    (cleanly : engine.FailsCleanly) (ids : before.DistinctIds)
    (run : (p.script config listing).Runs engine before trace (.error error) after) :
    p.Failure config listing engine before trace error after where
  last := by
    rintro earlier request answer later rfl fails
    obtain ⟨hlater, _, herror, reports⟩ := script_stops.last run fails
    obtain rfl := Except.error.inj herror
    exact ⟨hlater, reports⟩
  somewhere := fails_somewhere run
  onVolumes := FailsResolving.onVolumes
  halfDone _ _ _ _ _ fails := fails.halfDone honest keepsIds cleanly ids

/-- What a push has left that could not create its second container anew. -/
theorem left_by_failure_sample :
    (samplePair "postgres:17").Failure .standard sampleListing MemoryEngine.failing
      samplePairCourse.engine.holdings (sampleCutCourse (.refused "no space left" false)).happenings
      (.callRefused "create_and_start_container" "shop" "no space left")
      (sampleCutCourse (.refused "no space left" false)).engine.holdings := by
  have hverdict : (sampleCutCourse (.refused "no space left" false)).verdict =
      .error (.callRefused "create_and_start_container" "shop" "no space left") := by rfl
  have among : ∀ fate ∈ List.replicate 9 (Fate.served 0) ++ [.refused "no space left" false],
      (∃ exitCode, fate = .served exitCode) ∨ fate.happens = false := by
    intro fate hfate
    rcases List.mem_append.1 hfate with h | h
    · exact .inl ⟨0, List.eq_of_mem_replicate h⟩
    · rw [List.mem_singleton.1 h]
      exact .inr rfl
  refine left_by_failure (MemoryEngine.honest_conduct _) (MemoryEngine.keepsIds_conduct _)
    MemoryEngine.failsCleanly_failing distinctIds_samplePairCourse ?_
  rw [← hverdict]
  exact MemoryEngine.runs_follow (.inl ⟨0, rfl⟩) (MemoryEngine.numbered_empty.follow _ _) among _

end DevfilePush.Push
