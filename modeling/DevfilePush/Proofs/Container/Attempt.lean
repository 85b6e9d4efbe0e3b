import DevfilePush.Proofs.Container.Desired
import DevfilePush.Proofs.Push.Parts

/-!
# How one container is reconciled

One container is reconciled by at most five calls, and it can be given up at each of them. What happens
is laid down here once, from the first call to the last, whether it ends well or not; what a container
is left as, which error comes from where and which calls a good end takes are read off it.

## Main definitions

* `Holdings.ofAlias`: the containers of an alias of a component.
* `Starting`, `Judging`, `Blueprint.Realizing`: the calls with their answers, the verdict and what is
  held in the end, when a container is started, an old one is judged, and an alias is reconciled.

## Main statements

* `Blueprint.realizeOne_realizing`: every run goes one of these ways.
* `Blueprint.runs_realizeEach_cons_ok`, `Blueprint.runs_realize_ok`: containers in order that end well.
-/

namespace DevfilePush

/-- The containers of an alias of a component. -/
def Holdings.ofAlias (h : Holdings) (component aliasName : String) : List Running :=
  h.containersWith (Labels.ofContainer component aliasName)

/-! ## Containers of an alias -/

namespace Holdings

variable {h : Holdings} {component aliasName : String} {r : Running}

theorem mem_ofAlias :
    r ∈ h.ofAlias component aliasName ↔ r ∈ h.containers ∧
      r.live.labels.get? Conventions.componentLabel = some component ∧
      r.live.labels.get? Conventions.aliasLabel = some aliasName := by
  rw [ofAlias, containersWith, List.mem_filter, Labels.ofContainer_selects_iff]

/-- Removing the only container of an alias leaves the alias without one. -/
theorem ofAlias_removeContainer_self (only : h.ofAlias component aliasName = [r]) :
    (h.removeContainer r.live.id).ofAlias component aliasName = [] := by
  rw [ofAlias] at only ⊢
  simp [only]

/-- Removing a container of one alias leaves every other alias its containers. -/
theorem ofAlias_removeContainer_of_ne (ids : h.DistinctIds) (hr : r ∈ h.ofAlias component aliasName)
    {other : String} (hne : other ≠ aliasName) :
    (h.removeContainer r.live.id).ofAlias component other = h.ofAlias component other := by
  rw [ofAlias, containersWith_removeContainer, ← ofAlias, List.filter_eq_self]
  intro s hs
  simp only [decide_eq_true_eq]
  intro hid
  obtain ⟨hr, -, hralias⟩ := mem_ofAlias.1 hr
  obtain ⟨hs, -, hsalias⟩ := mem_ofAlias.1 hs
  rw [ids.eq_of_id hs hr hid, hralias] at hsalias
  exact hne (Option.some.inj hsalias).symm

end Holdings

/-- A container started for an alias is one more of that alias and of no other. -/
theorem Blueprint.ofAlias_addContainer {b : Blueprint} {ctx : Context} {c : Component}
    {desired : Definition} (hdesired : b.desired ctx c = .ok desired) {r : Running}
    (hlabels : r.live.labels = desired.config.labels) (h : Holdings) (aliasName : String) :
    (h.addContainer r).ofAlias ctx.component aliasName =
      h.ofAlias ctx.component aliasName ++ if aliasName = c.aliasName then [r] else [] := by
  have hselects : (Labels.ofContainer ctx.component aliasName).selects r.live.labels = true ↔
      aliasName = c.aliasName := by
    rw [hlabels, selects_desired hdesired, eq_self_iff_true, true_and]
  rw [Holdings.ofAlias, Holdings.containersWith_addContainer, ← Holdings.ofAlias]
  by_cases halias : aliasName = c.aliasName
  · rw [if_pos (hselects.2 halias), if_pos halias]
  · rw [if_neg (mt hselects.1 halias), if_neg halias]

/-! ## The ways an attempt can go -/

/-- The calls by which a container is started, with how that ends and what is held then. -/
inductive Starting (engine : Conduct) (c : Component) (desired : Definition) (before : Holdings) :
    List Happening → Except PushError String → Holdings → Prop
  | pullFails {answer : Answer (Request.pullImage c.image).Reply} {error : PushError}
      (fails : answer.Fails) :
      Starting engine c desired before [.answered (.pullImage c.image) answer] (.error error) before
  | createFails {answer : Answer (Request.createContainer desired).Reply} {error : PushError}
      {after : Holdings} (fails : answer.Fails)
      (met : engine before (.createContainer desired) answer after) :
      Starting engine c desired before
        [.answered (.pullImage c.image) (.reply ()), .answered (.createContainer desired) answer]
        (.error error) after
  | created {id : String} {after : Holdings}
      (met : engine before (.createContainer desired) (.reply id) after) :
      Starting engine c desired before
        [.answered (.pullImage c.image) (.reply ()), .answered (.createContainer desired) (.reply id)]
        (.ok id) after

/-- The calls by which the only container of an alias is kept or replaced, with how that ends and what
is held then. -/
inductive Judging (engine : Conduct) (c : Component) (desired : Definition) (live : ListedContainer)
    (before : Holdings) : List Happening → Except PushError ContainerRecord → Holdings → Prop
  | inspectFails {answer : Answer (Request.inspectContainer live.id).Reply} {error : PushError}
      (fails : answer.Fails) :
      Judging engine c desired live before [.answered (.inspectContainer live.id) answer]
        (.error error) before
  | kept {old : Running} (held : old ∈ before.containers) (hid : old.live.id = live.id)
      (agrees : desired.agrees old.definition = true) :
      Judging engine c desired live before
        [.answered (.inspectContainer live.id) (.reply old.definition)]
        (.ok ⟨c.aliasName, live.id, .kept⟩) before
  | removeFails {old : Running} (held : old ∈ before.containers) (hid : old.live.id = live.id)
      (differs : desired.agrees old.definition = false)
      {answer : Answer (Request.removeContainer live.id).Reply} {error : PushError} {after : Holdings}
      (fails : answer.Fails) (met : engine before (.removeContainer live.id) answer after) :
      Judging engine c desired live before
        [.answered (.inspectContainer live.id) (.reply old.definition),
          .answered (.removeContainer live.id) answer]
        (.error error) after
  | removed {old : Running} (held : old ∈ before.containers) (hid : old.live.id = live.id)
      (differs : desired.agrees old.definition = false) {calls : List Happening}
      {verdict : Except PushError String} {after : Holdings}
      (starting : Starting engine c desired (before.removeContainer live.id) calls verdict after) :
      Judging engine c desired live before
        (.answered (.inspectContainer live.id) (.reply old.definition) ::
          .answered (.removeContainer live.id) (.reply ()) :: calls)
        (verdict.map fun id => ⟨c.aliasName, id, .replaced (desired.differences old.definition)⟩) after

/-- The calls by which an alias is reconciled, with how that ends and what is held then. -/
inductive Blueprint.Realizing (b : Blueprint) (ctx : Context) (engine : Conduct) (c : Component)
    (before : Holdings) : List Happening → Except PushError ContainerRecord → Holdings → Prop
  | undesired {error : PushError} (hdesired : b.desired ctx c = .error error) :
      b.Realizing ctx engine c before [] (.error error) before
  | listFails {desired : Definition} (hdesired : b.desired ctx c = .ok desired)
      {answer : Answer (Request.listContainers (Labels.ofContainer ctx.component c.aliasName)).Reply}
      {error : PushError} (fails : answer.Fails) :
      b.Realizing ctx engine c before
        [.answered (.listContainers (Labels.ofContainer ctx.component c.aliasName)) answer]
        (.error error) before
  | conflict {desired : Definition} (hdesired : b.desired ctx c = .ok desired)
      {lives : List ListedContainer}
      (several : 2 ≤ (before.ofAlias ctx.component c.aliasName).length) :
      b.Realizing ctx engine c before
        [.answered (.listContainers (Labels.ofContainer ctx.component c.aliasName)) (.reply lives)]
        (.error (.duplicateContainers ctx.component c.aliasName lives.length)) before
  | missing {desired : Definition} (hdesired : b.desired ctx c = .ok desired)
      (none : before.ofAlias ctx.component c.aliasName = []) {calls : List Happening}
      {verdict : Except PushError String} {after : Holdings}
      (starting : Starting engine c desired before calls verdict after) :
      b.Realizing ctx engine c before
        (.answered (.listContainers (Labels.ofContainer ctx.component c.aliasName))
          (.reply ([] : List ListedContainer)) :: calls)
        (verdict.map fun id => ⟨c.aliasName, id, .created⟩) after
  | found {desired : Definition} (hdesired : b.desired ctx c = .ok desired) {old : Running}
      (only : before.ofAlias ctx.component c.aliasName = [old]) {calls : List Happening}
      {verdict : Except PushError ContainerRecord} {after : Holdings}
      (judging : Judging engine c desired old.live before calls verdict after) :
      b.Realizing ctx engine c before
        (.answered (.listContainers (Labels.ofContainer ctx.component c.aliasName))
          (.reply [old.live]) :: calls)
        verdict after

/-! ## Every run goes one of these ways -/

variable {ctx : Context} {engine : Conduct} {before after : Holdings} {trace : List Happening}
  {c : Component} {desired : Definition}

theorem startContainer_starting (honest : engine.Honest) {verdict : Except PushError String}
    (run : (startContainer ctx c desired).Runs engine before trace verdict after) :
    Starting engine c desired before (Happening.calls trace) verdict after := by
  rcases Script.runs_bind_iff.1 run with ⟨error, rfl, hpull⟩ | ⟨_, m₁, t₁, t₂, hpull, hrest, rfl⟩
  · obtain ⟨inner, hpull, hcalls⟩ := Script.runs_step_calls hpull
    rcases Script.runs_ask_cases hpull with ⟨reply, hreply, -⟩ | ⟨answer, _, fails, -, met, rfl⟩
    · cases hreply
    · obtain rfl := honest.unaltered_pull met
      rw [hcalls]
      exact .pullFails fails
  obtain ⟨inner, hpull, hcalls⟩ := Script.runs_step_calls hpull
  obtain ⟨met, rfl⟩ := Script.runs_ask_ok.1 hpull
  obtain rfl := honest.unaltered_pull met
  rw [Happening.calls_append, hcalls]
  rcases Script.runs_bind_iff.1 hrest with ⟨error, rfl, hcreate⟩ | ⟨id, m₂, t₃, t₄, hcreate, hlast, rfl⟩
  · obtain ⟨inner, hcreate, hcalls⟩ := Script.runs_step_calls hcreate
    rcases Script.runs_ask_cases hcreate with ⟨reply, hreply, -⟩ | ⟨answer, _, fails, -, met, rfl⟩
    · cases hreply
    · rw [hcalls]
      exact .createFails fails met
  obtain ⟨inner, hcreate, hcalls⟩ := Script.runs_step_calls hcreate
  obtain ⟨met, rfl⟩ := Script.runs_ask_ok.1 hcreate
  obtain ⟨rest, rfl, rfl, rfl, rfl⟩ := Script.runs_note_bind.1 hlast
  rw [Happening.calls_append, hcalls]
  exact .created met

theorem keepOrReplace_judging (honest : engine.Honest) {live : ListedContainer}
    {verdict : Except PushError ContainerRecord}
    (run : (keepOrReplace ctx c desired live).Runs engine before trace verdict after) :
    Judging engine c desired live before (Happening.calls trace) verdict after := by
  rcases Script.runs_bind_iff.1 run with ⟨error, rfl, hinspect⟩ | ⟨_, m₁, t₁, t₂, hinspect, hrest, rfl⟩
  · rcases Script.runs_ask_cases hinspect with ⟨reply, hreply, -⟩ | ⟨answer, _, fails, -, met, rfl⟩
    · cases hreply
    · obtain rfl := honest.unaltered met rfl
      exact .inspectFails fails
  obtain ⟨met, rfl⟩ := Script.runs_ask_ok.1 hinspect
  obtain ⟨⟨old, held, hid, rfl⟩, rfl⟩ := honest.granted met
  by_cases hagrees : desired.agrees old.definition = true
  · have hdifferences := hagrees
    rw [Definition.agrees] at hdifferences
    simp only [hdifferences, if_true] at hrest
    obtain ⟨rest, rfl, rfl, rfl, rfl⟩ := Script.runs_note_bind.1 hrest
    exact .kept held hid hagrees
  rw [Bool.not_eq_true] at hagrees
  have hdifferences := hagrees
  rw [Definition.agrees] at hdifferences
  simp only [hdifferences, Bool.false_eq_true, if_false] at hrest
  obtain ⟨t₃, rfl, hupdate⟩ := Script.runs_note_bind.1 hrest
  obtain ⟨replaced, hstep, rfl⟩ := Script.runs_bind_done.1 hupdate
  obtain ⟨inner, hbody, hcalls⟩ := Script.runs_step_calls hstep
  rw [Happening.calls_append, Happening.calls_logged, hcalls]
  rcases Script.runs_bind_iff.1 hbody with ⟨error, rfl, hremove⟩ | ⟨_, m₂, t₆, t₇, hremove, hstart, rfl⟩
  · rcases Script.runs_ask_cases hremove with ⟨reply, hreply, -⟩ | ⟨answer, _, fails, -, met, rfl⟩
    · cases hreply
    · exact .removeFails held hid hagrees fails met
  · obtain ⟨met, rfl⟩ := Script.runs_ask_ok.1 hremove
    obtain rfl := honest.granted met
    exact .removed held hid hagrees (startContainer_starting honest hstart)

/-- Whatever becomes of an alias, it goes one of the ways. -/
theorem Blueprint.realizeOne_realizing {b : Blueprint} (honest : engine.Honest)
    {verdict : Except PushError ContainerRecord}
    (run : (b.realizeOne ctx c).Runs engine before trace verdict after) :
    b.Realizing ctx engine c before (Happening.calls trace) verdict after := by
  obtain ⟨t₁, rfl, hrest⟩ := Script.runs_notes_bind.1 run
  rw [Happening.calls_append, Happening.calls_map_logged, List.nil_append]
  rcases Script.runs_bind_iff.1 hrest with ⟨error, rfl, hbuild⟩ | ⟨desired, m₂, t₃, t₄, hbuild, hlook, rfl⟩
  · obtain ⟨rfl, hdesired, rfl⟩ := Script.runs_ofExcept.1 hbuild
    exact .undesired hdesired.symm
  obtain ⟨rfl, hdesired, rfl⟩ := Script.runs_ofExcept.1 hbuild
  rw [List.nil_append]
  rcases Script.runs_bind_iff.1 hlook with ⟨error, rfl, hask⟩ | ⟨found, m₃, t₅, t₆, hask, hmatch, rfl⟩
  · rcases Script.runs_ask_cases hask with ⟨reply, hreply, -⟩ | ⟨answer, _, fails, -, met, rfl⟩
    · cases hreply
    · obtain rfl := honest.unaltered met rfl
      exact .listFails hdesired.symm fails
  obtain ⟨met, rfl⟩ := Script.runs_ask_ok.1 hask
  obtain ⟨hperm, rfl⟩ := honest.granted met
  cases hm : Lookup.ofMatches found with
  | missing =>
    obtain rfl := Lookup.ofMatches_eq_missing.1 hm
    rw [hm] at hmatch
    have hnone : m₃.ofAlias ctx.component c.aliasName = [] :=
      List.map_eq_nil_iff.1 hperm.nil_eq.symm
    obtain ⟨started, hstart, rfl⟩ := Script.runs_bind_done.1 hmatch
    exact .missing hdesired.symm hnone (startContainer_starting honest hstart)
  | found live =>
    obtain rfl := Lookup.ofMatches_eq_found.1 hm
    rw [hm] at hmatch
    obtain ⟨old, hold, rfl⟩ := List.map_eq_singleton_iff.1 (List.perm_singleton.1 hperm.symm)
    exact .found hdesired.symm hold (keepOrReplace_judging honest hmatch)
  | conflict lives =>
    obtain ⟨rfl, hseveral⟩ := Lookup.ofMatches_eq_conflict.1 hm
    rw [hm] at hmatch
    obtain ⟨rfl, rfl, rfl⟩ := hmatch
    rw [hperm.length_eq, List.length_map] at hseveral
    exact .conflict hdesired.symm hseveral

/-! ## Calls -/

section Calls

variable {b : Blueprint}

theorem Blueprint.realizeOne_asks : (b.realizeOne ctx c).Asks fun r => r.executes = false :=
  Script.closed_asks.realizeOne fun _ _ _ hr => Script.asks_ask (Request.executes_of_worksFor hr) _ _

theorem Blueprint.realizeEach_asks (components : List Component) :
    (b.realizeEach ctx components).Asks fun r => r.executes = false :=
  Script.closed_asks.realizeEach fun _ _ _ _ _ hr =>
    Script.asks_ask (Request.executes_of_worksFor hr) _ _

/-- Reconciling containers executes nothing. -/
theorem Blueprint.realize_asks : (b.realize ctx).Asks fun r => r.executes = false :=
  Script.closed_asks.realize fun _ _ _ _ _ hr =>
    Script.asks_ask (Request.executes_of_worksFor hr) _ _

end Calls

/-! ## Good ends -/

namespace Blueprint

variable {b : Blueprint} {rest : List Component}

/-- Containers in order are reconciled if the first one is, and then the others. -/
theorem runs_realizeEach_cons_ok {records : List ContainerRecord} :
    (b.realizeEach ctx (c :: rest)).Runs engine before trace (.ok records) after ↔
      ∃ record others middle t₁ t₂, (b.realizeOne ctx c).Runs engine before t₁ (.ok record) middle ∧
        (b.realizeEach ctx rest).Runs engine middle t₂ (.ok others) after ∧
        records = record :: others ∧
        trace = t₁ ++ .logged (.reconciled ctx.component record) :: t₂ := by
  constructor
  · intro run
    obtain ⟨record, middle, t₁, t₂, hfirst, hrest, rfl⟩ := Script.runs_bind_ok.1 run
    obtain ⟨t₃, rfl, hothers⟩ := Script.runs_note_bind.1 hrest
    obtain ⟨inner, heach, hinner⟩ := Script.runs_bind_done.1 hothers
    cases inner with
    | error e => cases hinner
    | ok others => exact ⟨record, others, middle, t₁, t₃, hfirst, heach, Except.ok.inj hinner, rfl⟩
  · rintro ⟨record, others, middle, t₁, t₂, hfirst, heach, rfl, rfl⟩
    have hothers : (Script.note (.reconciled ctx.component record) >>= fun _ =>
        b.realizeEach ctx rest >>= fun others => Script.done (record :: others)).Runs engine middle
        (.logged (.reconciled ctx.component record) :: t₂) (.ok (record :: others)) after :=
      Script.runs_note_bind.2 ⟨t₂, rfl, Script.runs_bind_done.2 ⟨.ok others, heach, rfl⟩⟩
    exact Script.runs_bind_ok.2 ⟨record, middle, t₁, _, hfirst, hothers, rfl⟩

/-- All containers are reconciled if they can be accepted and are reconciled in order. -/
theorem runs_realize_ok {report : ContainerReport} :
    (b.realize ctx).Runs engine before trace (.ok report) after ↔
      checkComponents b.components = .ok () ∧
        (b.realizeEach ctx b.components).Runs engine before trace (.ok report.records) after := by
  constructor
  · intro run
    obtain ⟨⟨⟩, middle, t₁, t₂, hcheck, hrest, rfl⟩ := Script.runs_bind_ok.1 run
    obtain ⟨rfl, haccepted, rfl⟩ := Script.runs_ofExcept.1 hcheck
    obtain ⟨inner, heach, hinner⟩ := Script.runs_bind_done.1 hrest
    cases inner with
    | error e => cases hinner
    | ok records =>
      obtain rfl := Except.ok.inj hinner
      exact ⟨haccepted.symm, heach⟩
  · rintro ⟨haccepted, heach⟩
    have hcheck : (Script.ofExcept (checkComponents b.components)).Runs engine before [] (.ok ()) before :=
      Script.runs_ofExcept.2 ⟨rfl, haccepted.symm, rfl⟩
    exact Script.runs_bind_ok.2
      ⟨(), before, [], trace, hcheck, Script.runs_bind_done.2 ⟨.ok report.records, heach, rfl⟩, rfl⟩

end Blueprint

/-- A container that is started is one more container, with the desired definition and its labels. -/
theorem Starting.ok (honest : engine.Honest) {calls : List Happening} {id : String}
    (starting : Starting engine c desired before calls (.ok id) after) :
    ∃ r : Running, r.live.id = id ∧ r.live.labels = desired.config.labels ∧ r.definition = desired ∧
      after = before.addContainer r := by
  cases starting with
  | created met => exact honest.granted met

/-- An alias that is reconciled had no container and one was created, or had one that was kept or
replaced. -/
theorem Blueprint.Realizing.ok_cases {b : Blueprint} (honest : engine.Honest) {calls : List Happening}
    {record : ContainerRecord} (realizing : b.Realizing ctx engine c before calls (.ok record) after) :
    ∃ desired, b.desired ctx c = .ok desired ∧
      ((before.ofAlias ctx.component c.aliasName = [] ∧
        ∃ new : Running, new.live.labels = desired.config.labels ∧ new.definition = desired ∧
          record = ⟨c.aliasName, new.live.id, .created⟩ ∧ after = before.addContainer new) ∨
      ∃ old, before.ofAlias ctx.component c.aliasName = [old] ∧
        ∃ r ∈ before.containers, r.live.id = old.live.id ∧
          ((desired.agrees r.definition = true ∧ record = ⟨c.aliasName, old.live.id, .kept⟩ ∧
              after = before) ∨
            (desired.agrees r.definition = false ∧
              ∃ new : Running, new.live.labels = desired.config.labels ∧ new.definition = desired ∧
                record = ⟨c.aliasName, new.live.id, .replaced (desired.differences r.definition)⟩ ∧
                after = (before.removeContainer old.live.id).addContainer new))) := by
  generalize hverdict : Except.ok record = verdict at realizing
  cases realizing with
  | undesired | listFails | conflict => cases hverdict
  | @missing desired hdesired none calls started after starting =>
    cases started with
    | error => cases hverdict
    | ok id =>
      obtain ⟨new, rfl, hlabels, hdefinition, hafter⟩ := starting.ok honest
      exact ⟨desired, hdesired, .inl ⟨none, new, hlabels, hdefinition, Except.ok.inj hverdict, hafter⟩⟩
  | @found desired hdesired old only calls _ after judging =>
    refine ⟨desired, hdesired, .inr ⟨old, only, ?_⟩⟩
    cases judging with
    | inspectFails | removeFails => cases hverdict
    | kept held hid agrees =>
      exact ⟨_, held, hid, .inl ⟨agrees, Except.ok.inj hverdict, rfl⟩⟩
    | @removed _ held hid differs calls started after starting =>
      cases started with
      | error => cases hverdict
      | ok id =>
        obtain ⟨new, rfl, hlabels, hdefinition, hafter⟩ := starting.ok honest
        exact ⟨_, held, hid, .inr ⟨differs, new, hlabels, hdefinition, Except.ok.inj hverdict, hafter⟩⟩

end DevfilePush
