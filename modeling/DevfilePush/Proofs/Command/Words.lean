import DevfilePush.Proofs.Devfile.Check
import DevfilePush.Proofs.Push.Parts

/-!
# What the commands of a push execute

Which words a push executes follows from its commands, from whether all containers were kept and from
what runs in the containers, before anything is executed. The commands do these words in order and stop
at the first that fails: whatever the engine answers, what was executed is the beginning of the plan, and
it is all of the plan if the commands ran to their end. Where every command names a container that is
there, nothing but a command that fails keeps them from it.

## Main definitions

* `CommandSelection.words`, `CommandSelection.wordsKept`: the words to execute.
* `Script.Executes`: a script executes these words in order and asks nothing else.
* `Script.Completes`: only a command that fails keeps a script from its end.

## Main statements

* `CommandSelection.runAll_executes`, `CommandSelection.runAll_completes`
* `CommandSelection.words_kept`: the words where all containers were kept.
* `CommandSelection.runs_runEach_cons_ok`, `CommandSelection.runs_runAll_ok`: commands that end well.
-/

namespace DevfilePush

/-! ## Plans -/

/-- The words that an action stands for in a container. -/
def Action.words (ctx : Context) (command : Command) (container : ListedContainer) :
    Action → List (List String)
  | .shell => [command.shellWords]
  | .launchSupervisor =>
    if ctx.config.supervisor.runsIn container then [] else [ctx.config.supervisor.daemonWords]
  | .restart => [ctx.config.supervisor.stopWords, ctx.config.supervisor.startWords]
  | .start => [ctx.config.supervisor.startWords]

/-- The words of a command that is taken as one of a group; none if its container is missing. -/
def Command.words (ctx : Context) (allKept : Bool) (containers : List ListedContainer)
    (gc : CommandGroup × Command) : List (List String) :=
  match gc.2.target ctx containers with
  | .ok container => (gc.2.actions gc.1 allKept).flatMap (Action.words ctx gc.2 container)
  | .error _ => []

/-- The words of all commands, in order. -/
def CommandSelection.words (ctx : Context) (s : CommandSelection) (allKept : Bool)
    (containers : List ListedContainer) : List (List String) :=
  s.commands.flatMap (Command.words ctx allKept containers)

/-- The words where all containers were kept: the build command's line, then the application is
restarted, or started where the run command says so. The init command has no part in it. -/
def CommandSelection.wordsKept (s : CommandSelection) (supervisor : Supervisor) : List (List String) :=
  s.build.toList.map Command.shellWords ++
  s.run.toList.flatMap fun run =>
    if run.restarts then [supervisor.stopWords, supervisor.startWords] else [supervisor.startWords]

/-! ## Executing -/

/-- The words of a call that executes them. -/
def Request.words? : Request → Option (List String)
  | .exec _ argv _ => some argv
  | .listVolumes _ | .createVolume .. | .pullImage _ | .createContainer _ | .removeContainer _
  | .listContainers _ | .inspectContainer _ => none

/-- The words executed in a run, whatever came of them. -/
def Happening.executed (trace : List Happening) : List (List String) :=
  (trace.filterMap (·.call?)).filterMap (·.words?)

/-- Whether it is no command that ended otherwise than with success. -/
def Happening.WentWell : Happening → Prop
  | .answered (.exec ..) answer => answer = .reply (0 : Int32)
  | _ => True

@[simp] theorem Happening.executed_append (a b : List Happening) :
    executed (a ++ b) = executed a ++ executed b := by
  simp [executed]

/-- Where all calls execute nothing, no words are executed. -/
theorem Happening.executed_eq_nil {trace : List Happening}
    (h : ∀ r ∈ trace.filterMap (·.call?), r.executes = false) : executed trace = [] := by
  rw [executed, List.filterMap_eq_nil_iff]
  intro r hr
  have hnone := h r hr
  cases r <;> first | rfl | cases hnone

/-- A call that executes words makes and removes nothing. -/
theorem Request.alters_of_executes {r : Request} (h : r.executes = true) : r.alters = false := by
  cases r <;> first | rfl | cases h

/-- A call that looks executes nothing. -/
theorem Request.words?_of_looks {r : Request} (h : r.looks = true) : r.words? = none := by
  cases r <;> first | rfl | cases h

namespace Script

variable {α β : Type} {plan rest : List (List String)}

/-- The script asks for nothing but to execute words, in the order of the plan, and comes to its end
only after all of them. -/
structure Executes (s : Script α) (plan : List (List String)) : Prop where
  asks : s.Asks fun r => r.executes = true
  beginning : ∀ {engine : Conduct} {before after : Holdings} {trace : List Happening}
    {verdict : Except PushError α}, s.Runs engine before trace verdict after →
      Happening.executed trace <+: plan
  all : ∀ {engine : Conduct} {before after : Holdings} {trace : List Happening} {value : α},
    s.Runs engine before trace (.ok value) after → Happening.executed trace = plan

/-- A run of the script in which no command fails comes to its end. -/
def Completes (s : Script α) : Prop :=
  ∀ ⦃engine : Conduct⦄ ⦃before after : Holdings⦄ ⦃trace : List Happening⦄
    ⦃verdict : Except PushError α⦄, s.Runs engine before trace verdict after →
      (∀ x ∈ trace, x.WentWell) → ∃ value, verdict = .ok value

theorem executes_done (value : α) : (done value).Executes [] where
  asks := trivial
  beginning run := by
    obtain ⟨rfl, -⟩ := run
    exact List.prefix_rfl
  all run := by
    obtain ⟨rfl, -⟩ := run
    rfl

theorem executes_note (event : Event) : (note event).Executes [] where
  asks := asks_note event
  beginning run := by
    obtain ⟨rfl, -⟩ := runs_note.1 run
    exact List.prefix_rfl
  all run := by
    obtain ⟨rfl, -⟩ := runs_note.1 run
    rfl

/-- A script that cannot come to its end and asks for nothing executes the beginning of any plan. -/
theorem executes_fail (error : PushError) (plan : List (List String)) :
    (fail error : Script α).Executes plan where
  asks := trivial
  beginning run := by
    obtain ⟨rfl, -⟩ := run
    exact List.nil_prefix
  all run := by
    cases run.2.1

/-- Scripts in sequence execute one plan after the other. -/
theorem Executes.bind {s : Script α} {f : α → Script β} (hs : s.Executes plan)
    (hf : ∀ value, (f value).Executes rest) : (s >>= f).Executes (plan ++ rest) where
  asks := hs.asks.bind fun value => (hf value).asks
  beginning run := by
    rcases runs_bind_iff.1 run with ⟨error, -, h⟩ | ⟨value, middle, t₁, t₂, h₁, h₂, rfl⟩
    · exact (hs.beginning h).trans (List.prefix_append plan rest)
    · rw [Happening.executed_append, hs.all h₁, List.prefix_append_right_inj]
      exact (hf value).beginning h₂
  all run := by
    obtain ⟨value, middle, t₁, t₂, h₁, h₂, rfl⟩ := runs_bind_ok.1 run
    rw [Happening.executed_append, hs.all h₁, (hf value).all h₂]

/-- Telling of the end executes nothing more. -/
theorem Executes.told {s : Script α} (hs : s.Executes plan) (event : Event) (f : α → β) :
    (s >>= fun value => note event >>= fun _ => done (f value)).Executes plan := by
  have htold : ∀ value, (note event >>= fun _ => done (f value)).Executes [] := fun value =>
    (executes_note event).bind fun _ => executes_done (f value)
  rw [← List.append_nil plan]
  exact hs.bind htold

theorem completes_done (value : α) : (done value).Completes := by
  rintro engine before after trace verdict ⟨-, rfl, -⟩ -
  exact ⟨value, rfl⟩

theorem completes_note (event : Event) : (note event).Completes := by
  intro engine before after trace verdict run _
  obtain ⟨-, rfl, -⟩ := runs_note.1 run
  exact ⟨(), rfl⟩

theorem Completes.bind {s : Script α} {f : α → Script β} (hs : s.Completes)
    (hf : ∀ value, (f value).Completes) : (s >>= f).Completes := by
  intro engine before after trace verdict run well
  rcases runs_bind_iff.1 run with ⟨error, rfl, h⟩ | ⟨value, middle, t₁, t₂, h₁, h₂, rfl⟩
  · obtain ⟨value, hvalue⟩ := hs h well
    cases hvalue
  · exact hf value h₂ fun x hx => well x (List.mem_append_right t₁ hx)

theorem composes_completes : Composes fun _ s => s.Completes where
  done := completes_done
  bind := Completes.bind

theorem Completes.told {s : Script α} (hs : s.Completes) (event : Event) (f : α → β) :
    (s >>= fun value => note event >>= fun _ => done (f value)).Completes :=
  hs.bind fun value => (completes_note event).bind fun _ => completes_done (f value)

end Script

/-! ## Commands -/

variable {ctx : Context}

namespace Command

variable {command : Command} {container : ListedContainer} {containers : List ListedContainer}
  {group : CommandGroup} {allKept : Bool}

/-- A command has a target if some container carries the alias that it names. -/
theorem exists_target (labelled : ∃ c ∈ containers, c.alias? = some command.component) :
    ∃ c, command.target ctx containers = .ok c := by
  obtain ⟨c, hc, halias⟩ := labelled
  unfold target
  split
  · exact ⟨_, rfl⟩
  · have hnone := List.find?_eq_none.1 ‹_› c hc
    simp [halias] at hnone

/-- A call that executes words for a command comes to its end only if it ends with success. -/
theorem execute_executes (argv : List String) :
    (command.execute ctx container argv).Executes [argv] := by
  refine (Script.executes_note (.exec container.id argv)).bind fun _ => ⟨⟨rfl, fun answer => ?_⟩, ?_, ?_⟩
  · cases answer with
    | reply code =>
      by_cases hcode : isSuccess code <;> simp [judge, hcode, Script.Asks]
    | refused | expired => trivial
  · rintro engine before after trace verdict ⟨answer, middle, rest, -, rfl, h⟩
    have hrest : rest = [] := by
      cases answer with
      | reply code =>
        change (command.judge code).Runs engine middle rest verdict after at h
        by_cases hcode : isSuccess code <;> simp [judge, hcode] at h <;> exact h.1
      | refused | expired => exact h.1
    rw [hrest]
    exact List.prefix_rfl
  · rintro engine before after trace value ⟨answer, middle, rest, -, rfl, h⟩
    cases answer with
    | reply code =>
      change (command.judge code).Runs engine middle rest (.ok value) after at h
      by_cases hcode : isSuccess code <;> simp [judge, hcode] at h
      rw [h.1]
      rfl
    | refused | expired => cases h.2.1

theorem execute_completes (argv : List String) : (command.execute ctx container argv).Completes := by
  refine (Script.completes_note _).bind fun _ => ?_
  rintro engine before after trace verdict ⟨answer, middle, rest, -, rfl, h⟩ well
  obtain rfl : answer = .reply (0 : Int32) := well _ List.mem_cons_self
  exact ⟨(), h.2.1⟩

theorem act_executes (action : Action) :
    (command.act ctx container action).Executes (action.words ctx command container) := by
  cases action with
  | shell => exact (execute_executes _).bind fun _ => Script.executes_done _
  | launchSupervisor =>
    unfold act
    by_cases hruns : ctx.config.supervisor.runsIn container
    · simp only [hruns, if_true, Action.words]
      exact (Script.executes_note _).bind fun _ => Script.executes_done _
    · simp only [hruns, Bool.false_eq_true, if_false, Action.words]
      exact (execute_executes _).bind fun _ => Script.executes_done _
  | restart =>
    exact (execute_executes _).bind fun _ => (execute_executes _).bind fun _ => Script.executes_done _
  | start =>
    exact (Script.executes_note _).bind fun _ =>
      (execute_executes _).bind fun _ => Script.executes_done _

theorem actEach_executes (actions : List Action) :
    (command.actEach ctx group container actions).Executes
      (actions.flatMap (Action.words ctx command container)) := by
  induction actions with
  | nil => exact Script.executes_done _
  | cons action rest ih =>
    rw [List.flatMap_cons, ← List.append_nil (rest.flatMap _)]
    exact (act_executes action).bind fun _ => ih.bind fun _ => Script.executes_done _

theorem actEach_completes (actions : List Action) :
    (command.actEach ctx group container actions).Completes :=
  Script.composes_completes.actEach execute_completes (Script.completes_note _)
    (Script.completes_note _) group actions

/-- A command executes its own words. -/
theorem run_executes :
    (command.run ctx group allKept containers).Executes
      (Command.words ctx allKept containers (group, command)) := by
  unfold run Command.words
  cases htarget : command.target ctx containers with
  | error e =>
    cases hactions : command.actions group allKept with
    | nil => exact (Script.executes_note _).bind fun _ => Script.executes_done _
    | cons action rest => exact Script.executes_fail e []
  | ok target =>
    cases hactions : command.actions group allKept with
    | nil => exact (Script.executes_note _).bind fun _ => Script.executes_done _
    | cons action rest =>
      change (Script.note _ >>= fun _ => command.actEach ctx group target (action :: rest)).Executes _
      exact (Script.executes_note _).bind fun _ => actEach_executes (action :: rest)

/-- The words of a command whose container is there, where all containers were kept. -/
theorem words_kept (target : ∃ container, command.target ctx containers = .ok container) :
    Command.words ctx true containers (group, command) =
      match group with
      | .init => []
      | .build => [command.shellWords]
      | .run =>
        if command.restarts then [ctx.config.supervisor.stopWords, ctx.config.supervisor.startWords]
        else [ctx.config.supervisor.startWords] := by
  obtain ⟨container, htarget⟩ := target
  rw [Command.words, htarget]
  cases group with
  | init | build => rfl
  | run => by_cases hrestarts : command.restarts <;> simp [actions, hrestarts, Action.words]

/-- A command whose container is there comes to its end unless it fails. -/
theorem run_completes (target : ∃ container, command.target ctx containers = .ok container) :
    (command.run ctx group allKept containers).Completes := by
  obtain ⟨container, htarget⟩ := target
  unfold run
  cases hactions : command.actions group allKept with
  | nil => exact (Script.completes_note _).bind fun _ => Script.completes_done _
  | cons action rest =>
    rw [htarget]
    exact (Script.completes_done container).bind fun _ =>
      (Script.completes_note _).bind fun _ => actEach_completes _

end Command

namespace CommandSelection

variable {allKept : Bool} {containers : List ListedContainer} {s : CommandSelection}

section GoodEnds

variable {engine : Conduct} {before after : Holdings} {trace : List Happening}

/-- Commands in order run to their end if the first one does, and then the others. -/
theorem runs_runEach_cons_ok {gc : CommandGroup × Command} {rest : List (CommandGroup × Command)}
    {records : List ActionRecord} :
    (runEach ctx allKept containers (gc :: rest)).Runs engine before trace (.ok records) after ↔
      ∃ first others middle t₁ t₂,
        (gc.2.run ctx gc.1 allKept containers).Runs engine before t₁ (.ok first) middle ∧
        (runEach ctx allKept containers rest).Runs engine middle t₂ (.ok others) after ∧
        records = first ++ others ∧ trace = t₁ ++ t₂ := by
  constructor
  · intro run
    obtain ⟨first, middle, t₁, t₂, hfirst, hrest, rfl⟩ := Script.runs_bind_ok.1 run
    obtain ⟨inner, hothers, hinner⟩ := Script.runs_bind_done.1 hrest
    cases inner with
    | error e => cases hinner
    | ok others => exact ⟨first, others, middle, t₁, t₂, hfirst, hothers, Except.ok.inj hinner, rfl⟩
  · rintro ⟨first, others, middle, t₁, t₂, hfirst, hothers, rfl, rfl⟩
    exact Script.runs_bind_ok.2 ⟨first, middle, t₁, t₂, hfirst,
      Script.runs_bind_done.2 ⟨.ok others, hothers, rfl⟩, rfl⟩

/-- The commands of a push run to their end if there are any and they do so in order. -/
theorem runs_runAll_ok {report : CommandReport} :
    (runAll ctx s allKept containers).Runs engine before trace (.ok report) after ↔
      s.isEmpty = false ∧
        (runEach ctx allKept containers s.commands).Runs engine before trace (.ok report.records)
          after := by
  unfold runAll
  by_cases hempty : s.isEmpty
  · simp [hempty]
  · rw [if_neg hempty]
    change (runEach ctx allKept containers s.commands >>= fun records => Script.done ⟨records⟩).Runs
      engine before trace (.ok report) after ↔ _
    rw [Script.runs_bind_done]
    constructor
    · rintro ⟨inner, heach, hinner⟩
      cases inner with
      | error e => cases hinner
      | ok records =>
        obtain rfl := Except.ok.inj hinner
        exact ⟨Bool.eq_false_iff.2 hempty, heach⟩
    · rintro ⟨-, heach⟩
      exact ⟨.ok report.records, heach, rfl⟩

end GoodEnds

theorem runEach_executes (commands : List (CommandGroup × Command)) :
    (runEach ctx allKept containers commands).Executes
      (commands.flatMap (Command.words ctx allKept containers)) := by
  induction commands with
  | nil => exact Script.executes_done _
  | cons gc rest ih =>
    rw [List.flatMap_cons, ← List.append_nil (rest.flatMap _)]
    exact Command.run_executes.bind fun _ => ih.bind fun _ => Script.executes_done _

theorem runEach_completes (commands : List (CommandGroup × Command))
    (targets : ∀ gc ∈ commands, ∃ container, gc.2.target ctx containers = .ok container) :
    (runEach ctx allKept containers commands).Completes := by
  induction commands with
  | nil => exact Script.completes_done _
  | cons gc rest ih =>
    rw [List.forall_mem_cons] at targets
    exact (Command.run_completes targets.1).bind fun _ =>
      (ih targets.2).bind fun _ => Script.completes_done _

/-- The commands of a push execute their words in order. -/
theorem runAll_executes :
    (runAll ctx s allKept containers).Executes (s.words ctx allKept containers) := by
  unfold runAll
  by_cases hempty : s.isEmpty
  · rw [if_pos hempty]
    exact Script.executes_fail _ _
  · rw [if_neg hempty, ← List.append_nil (s.words ctx allKept containers)]
    exact (runEach_executes s.commands).bind fun _ => Script.executes_done _

/-- Commands whose containers are there come to their end unless one of them fails. -/
theorem runAll_completes (nonempty : s.isEmpty = false)
    (targets : ∀ gc ∈ s.commands, ∃ container, gc.2.target ctx containers = .ok container) :
    (runAll ctx s allKept containers).Completes := by
  unfold runAll
  rw [if_neg (by simp [nonempty])]
  exact (runEach_completes s.commands targets).bind fun _ => Script.completes_done _

/-- Where all containers were kept and every command's container is there, these are the words. -/
theorem words_kept (targets : ∀ gc ∈ s.commands, ∃ container,
      gc.2.target ctx containers = .ok container) :
    s.words ctx true containers = s.wordsKept ctx.config.supervisor := by
  have hwords : s.words ctx true containers = s.commands.flatMap fun gc =>
      match gc.1 with
      | .init => []
      | .build => [gc.2.shellWords]
      | .run =>
        if gc.2.restarts then [ctx.config.supervisor.stopWords, ctx.config.supervisor.startWords]
        else [ctx.config.supervisor.startWords] :=
    List.flatMap_congr fun gc hgc => Command.words_kept (targets gc hgc)
  rw [hwords]
  obtain ⟨init, build, run⟩ := s
  cases init <;> cases build <;> cases run <;> rfl

end CommandSelection

end DevfilePush
