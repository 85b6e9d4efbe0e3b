import DevfilePush.Proofs.Command.Words

/-!
# When the init command runs

A command is announced by an event before anything is executed for it, so that a trace tells an init
command from a build command with the same words. Where all containers were kept, no init command is
announced, whatever the engine answers; where some were not, an init command is the first thing that a
push does with its commands, and if these come to their end it has ended with success.

## Main definitions

* `Event.announcesInit`: an event that announces an init command.
* `Command.initiation`: the happenings of an init command that ends with success.

## Main statements

* `CommandSelection.runAll_logs`, `CommandSelection.runAll_initiation`
-/

namespace DevfilePush

/-- Whether an event announces an init command. -/
def Event.announcesInit : Event → Bool
  | executing _ .init _ => true
  | _ => false

/-- What happens when an init command is executed in the container of an id and ends with success. -/
def Command.initiation (init : Command) (component id : String) (attach : Bool) : List Happening :=
  [.logged (.executing component .init init), .logged (.exec id init.shellWords),
    .answered (.exec id init.shellWords attach) (.reply (0 : Int32))]

/-- If nothing was executed before a call, nor by it, then an init command that ends with success was
announced after that call. -/
theorem Command.announced_of_initiation {init : Command} {component id : String} {attach : Bool}
    {front rest earlier later : List Happening} {request : Request} {answer : Answer request.Reply}
    (quiet : Happening.executed front = []) (looks : request.executes = false)
    (h : front ++ .answered request answer :: rest =
      earlier ++ (init.initiation component id attach ++ later)) :
    .logged (.executing component .init init) ∈ rest := by
  have hmem : ∀ {trace : List Happening}, .logged (.executing component .init init) ∈
      .answered request answer :: trace → .logged (.executing component .init init) ∈ trace := by
    intro trace hmem
    rcases List.mem_cons.1 hmem with heq | hmem
    · cases heq
    · exact hmem
  rcases List.append_eq_append_iff.1 h with ⟨after, -, hrest⟩ | ⟨before, rfl, hinit⟩
  · apply hmem
    rw [hrest]
    simp [initiation]
  · -- what comes first would be one of the three happenings
    rw [Happening.executed_append, List.append_eq_nil_iff] at quiet
    rcases before with _ | ⟨a, _ | ⟨b, _ | ⟨c, before⟩⟩⟩
    · simp [initiation] at hinit
    · simp [initiation] at hinit
    · simp only [initiation, List.cons_append, List.nil_append, List.cons.injEq] at hinit
      obtain ⟨-, -, hexec, -⟩ := hinit
      cases hexec
      cases looks
    · simp only [initiation, List.cons_append, List.nil_append, List.cons.injEq] at hinit
      obtain ⟨rfl, rfl, rfl, -⟩ := hinit
      cases quiet.2

variable {ctx : Context} {containers : List ListedContainer}

/-! ## Where all containers were kept -/

section Kept

variable {command : Command} {container : ListedContainer} {group : CommandGroup}

namespace Command

theorem execute_logs {events : Event → Prop} {argv : List String}
    (hexec : events (.exec container.id argv)) :
    (command.execute ctx container argv).Logs events := by
  refine ⟨hexec, fun answer => ?_⟩
  cases answer with
  | reply code =>
    change (command.judge code).Logs _
    by_cases hcode : isSuccess code <;> simp [judge, hcode, Script.Logs]
  | refused | expired => trivial

theorem actEach_logs (actions : List Action) :
    (command.actEach ctx group container actions).Logs (·.announcesInit = false) := by
  have hexecute : ∀ argv, (command.execute ctx container argv).Logs (·.announcesInit = false) :=
    fun _ => execute_logs rfl
  exact Script.composes_logs.actEach hexecute ⟨rfl, trivial⟩ ⟨rfl, trivial⟩ group actions

/-- Where all containers were kept, an init command has nothing to do and is not announced. -/
theorem run_logs : (command.run ctx group true containers).Logs (·.announcesInit = false) := by
  cases group with
  | init => exact ⟨rfl, trivial⟩
  | build =>
    unfold run
    cases command.target ctx containers with
    | ok container => exact ⟨rfl, actEach_logs _⟩
    | error e => trivial
  | run =>
    unfold run
    by_cases hrestarts : command.restarts
    all_goals
      simp only [actions, hrestarts]
      cases command.target ctx containers with
      | ok container => exact ⟨rfl, actEach_logs _⟩
      | error e => trivial

end Command

theorem CommandSelection.runAll_logs (s : CommandSelection) :
    (runAll ctx s true containers).Logs (·.announcesInit = false) := by
  have heach : ∀ commands, (runEach ctx true containers commands).Logs (·.announcesInit = false) := by
    intro commands
    induction commands with
    | nil => trivial
    | cons gc rest ih => exact Command.run_logs.bind fun _ => ih.bind fun _ => trivial
  unfold runAll
  by_cases hempty : s.isEmpty
  · rw [if_pos hempty]
    trivial
  · rw [if_neg hempty]
    exact (heach _).bind fun _ => trivial

end Kept

/-! ## Where some containers were not kept -/

variable {engine : Conduct} {before after : Holdings} {trace : List Happening}

theorem isSuccess_iff {code : Int32} : isSuccess code = true ↔ code = 0 := by
  rw [isSuccess, decide_eq_true_eq]

/-- Words that are executed for a command and do not fail have ended with success. -/
theorem Command.execute_ok {command : Command} {container : ListedContainer} {argv : List String}
    (run : (command.execute ctx container argv).Runs engine before trace (.ok ()) after) :
    trace = [.logged (.exec container.id argv),
      .answered (.exec container.id argv ctx.config.showOutput) (.reply (0 : Int32))] := by
  obtain ⟨_, rfl, answer, middle, rest, -, rfl, h⟩ := run
  cases answer with
  | reply code =>
    change (command.judge code).Runs engine middle rest (.ok ()) after at h
    by_cases hcode : isSuccess code
    · simp only [judge, hcode, if_true] at h
      have hzero : code = (0 : Int32) := isSuccess_iff.1 hcode
      rw [h.1, hzero]
    · simp [judge, hcode] at h
  | refused | expired => cases h.2.1

/-- An init command that runs to its end has ended with success. -/
theorem Command.run_initiation {init : Command} {records : List ActionRecord}
    (run : (init.run ctx .init false containers).Runs engine before trace (.ok records) after) :
    ∃ id, trace = init.initiation ctx.component id ctx.config.showOutput := by
  obtain ⟨container, m₁, t₁, t₂, htarget, hrest, rfl⟩ := Script.runs_bind_ok.1 run
  obtain ⟨rfl, -, rfl⟩ := Script.runs_ofExcept.1 htarget
  obtain ⟨rest, rfl, hact⟩ := Script.runs_note_bind.1 hrest
  obtain ⟨executed, m₂, t₃, t₄, hshell, hlast, rfl⟩ := Script.runs_bind_ok.1 hact
  obtain ⟨⟨⟩, m₃, t₅, t₆, hexecute, ⟨rfl, -, -⟩, rfl⟩ := Script.runs_bind_ok.1 hshell
  obtain ⟨rfl, -, -⟩ := hlast
  rw [execute_ok hexecute]
  exact ⟨container.id, rfl⟩

/-- Commands that run to their end have begun with the init command, if there is one. -/
theorem CommandSelection.runAll_initiation {s : CommandSelection} {init : Command}
    (declared : s.init = some init) {report : CommandReport}
    (run : (runAll ctx s false containers).Runs engine before trace (.ok report) after) :
    ∃ id rest, trace = init.initiation ctx.component id ctx.config.showOutput ++ rest := by
  have hcommands : ∃ others, s.commands = (.init, init) :: others := by
    simp [commands, CommandGroup.order, get, declared]
  obtain ⟨others, hcommands⟩ := hcommands
  obtain ⟨-, heach⟩ := runs_runAll_ok.1 run
  rw [hcommands] at heach
  obtain ⟨first, records, m, t₁, t₂, hfirst, -, -, rfl⟩ := runs_runEach_cons_ok.1 heach
  obtain ⟨id, rfl⟩ := Command.run_initiation hfirst
  exact ⟨id, t₂, rfl⟩

end DevfilePush
