import DevfilePush.Proofs.Command.Words
import DevfilePush.Push

/-!
# A push stops at the first call that fails

A call that is refused, one that outlasts its deadline and a command that ends otherwise than with
success all end the push: nothing more is asked of the engine, and the error that the push ends with
tells of that very call. This is a property of the script alone, so it holds whatever an engine does.

## Main definitions

* `Context.Reports`: the error that tells of a call that fails.
* `Script.Stops`: a script that stops at each call that fails.

## Main statements

* `Script.Stops.last`: in a run of such a script, the call that fails is the last one.
* `Push.script_stops`: a push is such a script.
-/

namespace DevfilePush

/-- The error that tells of a call that fails, by the operation and the component, or by the command
that was executed. -/
inductive Context.Reports (ctx : Context) (commands : Command → Prop) :
    (r : Request) → Answer r.Reply → PushError → Prop
  | callRefused {r : Request} (reason : String) (hr : r.executes = false) :
      ctx.Reports commands r (.refused reason) (.callRefused r.operation ctx.component reason)
  | callExpired {r : Request} (hr : r.executes = false) :
      ctx.Reports commands r .expired
        (.callExpired (r.operation ++ " (" ++ ctx.component ++ ")") ctx.config.callDeadline)
  | commandRefused {id : String} {argv : List String} {attach : Bool} (reason : String)
      {command : Command} (hcommand : commands command) :
      ctx.Reports commands (.exec id argv attach) (.refused reason)
        (.commandRefused command.id command.component reason)
  | commandExpired {id : String} {argv : List String} {attach : Bool} {command : Command}
      (hcommand : commands command) :
      ctx.Reports commands (.exec id argv attach) .expired
        (.callExpired ("command '" ++ command.id ++ "' in '" ++ command.component ++ "'")
          ctx.config.execDeadline)
  | commandFailed {id : String} {argv : List String} {attach : Bool} {code : Int32}
      {command : Command} (hcommand : commands command) :
      ctx.Reports commands (.exec id argv attach) (.reply code)
        (.commandFailed command.id command.component code)

namespace Script

variable {α β : Type} {reported : PushError → Prop} {reports : (r : Request) → Answer r.Reply → PushError → Prop}

/-- Nothing is left for the script but to end with an error that is reported. -/
def Quits (reported : PushError → Prop) : Script α → Prop
  | .done _ => False
  | .fail error => reported error
  | .log _ next => next.Quits reported
  | .call .. => False

/-- After each call that fails, nothing is left for the script but to end with an error that tells of
this call. -/
def Stops (reports : (r : Request) → Answer r.Reply → PushError → Prop) : Script α → Prop
  | .done _ => True
  | .fail _ => True
  | .log _ next => next.Stops reports
  | .call request _ next => ∀ answer, (next answer).Stops reports ∧
      ((Happening.answered request answer).Fails → (next answer).Quits (reports request answer))

theorem Quits.bind {s : Script α} (hs : s.Quits reported) (f : α → Script β) :
    (s >>= f).Quits reported := by
  induction s with
  | done => exact hs.elim
  | fail => exact hs
  | log event next ih => exact ih hs
  | call => exact hs.elim

theorem Quits.closing {s : Script α} (hs : s.Quits reported) (message : String) :
    (s.closing message).Quits reported := by
  induction s with
  | done => exact hs.elim
  | fail => exact hs
  | log event next ih => exact ih hs
  | call => exact hs.elim

theorem Stops.bind {s : Script α} {f : α → Script β} (hs : s.Stops reports)
    (hf : ∀ value, (f value).Stops reports) : (s >>= f).Stops reports := by
  induction s with
  | done value => exact hf value
  | fail => trivial
  | log event next ih => exact ih hs
  | call request deadline next ih =>
    intro answer
    exact ⟨ih answer (hs answer).1, fun fails => ((hs answer).2 fails).bind f⟩

theorem Stops.closing {s : Script α} (hs : s.Stops reports) (message : String) :
    (s.closing message).Stops reports := by
  induction s with
  | done | fail => trivial
  | log event next ih => exact ih hs
  | call request deadline next ih =>
    intro answer
    exact ⟨ih answer (hs answer).1, fun fails => ((hs answer).2 fails).closing message⟩

theorem closed_stops : Closed fun _ s => s.Stops reports where
  done _ := trivial
  bind := Stops.bind
  fail _ := trivial
  note _ := trivial
  closing := Stops.closing

/-- A script that quits asks for nothing more. -/
theorem Quits.last {s : Script α} (hs : s.Quits reported) {engine : Conduct} {before after : Holdings}
    {trace : List Happening} {verdict : Except PushError α}
    (run : s.Runs engine before trace verdict after) :
    Happening.calls trace = [] ∧ ∃ error, verdict = .error error ∧ reported error := by
  induction s generalizing before trace with
  | done => exact hs.elim
  | fail error =>
    obtain ⟨rfl, rfl, -⟩ := run
    exact ⟨rfl, error, rfl, hs⟩
  | log event next ih =>
    obtain ⟨rest, rfl, h⟩ := run
    obtain ⟨hcalls, herror⟩ := ih hs h
    exact ⟨hcalls, herror⟩
  | call => exact hs.elim

/-- **The last call.** In a run of a script that stops, nothing is called after a call that fails, and
the run ends with an error that tells of it. -/
theorem Stops.last {s : Script α} (hs : s.Stops reports) {engine : Conduct} {before after : Holdings}
    {earlier later : List Happening} {request : Request} {answer : Answer request.Reply}
    {verdict : Except PushError α}
    (run : s.Runs engine before (earlier ++ .answered request answer :: later) verdict after)
    (fails : (Happening.answered request answer).Fails) :
    Happening.calls later = [] ∧ ∃ error, verdict = .error error ∧ reports request answer error := by
  induction s generalizing before earlier with
  | done | fail =>
    have hnil := run.1
    simp at hnil
  | log event next ih =>
    obtain ⟨rest, htrace, h⟩ := run
    cases earlier with
    | nil => cases htrace
    | cons x earlier =>
      obtain ⟨-, rfl⟩ := List.cons.inj htrace
      exact ih hs h
  | call first deadline next ih =>
    obtain ⟨answer', middle, rest, -, htrace, h⟩ := run
    cases earlier with
    | nil =>
      obtain ⟨hcall, rfl⟩ := List.cons.inj htrace
      cases hcall
      exact ((hs answer).2 fails).last h
    | cons x earlier =>
      obtain ⟨-, rfl⟩ := List.cons.inj htrace
      exact ih answer' (hs answer').1 h

end Script

variable {ctx : Context} {commands : Command → Prop}

/-- The errors that tell of calls that fail are of two categories. -/
theorem Context.Reports.category {r : Request} {answer : Answer r.Reply} {error : PushError}
    (reports : ctx.Reports commands r answer error) :
    error.category = .runtime ∨ error.category = .commandExec := by
  cases reports with
  | callRefused | callExpired | commandExpired => exact .inl rfl
  | commandRefused | commandFailed => exact .inr rfl

/-- Where a script ends with an error of another category, every call was replied. -/
theorem Script.Stops.replied {α : Type} {s : Script α} (hs : s.Stops (ctx.Reports commands))
    {engine : Conduct} {before after : Holdings} {trace : List Happening} {error : PushError}
    (run : s.Runs engine before trace (.error error) after) (hruntime : error.category ≠ .runtime)
    (hexec : error.category ≠ .commandExec) : ∀ x ∈ trace, ¬ x.Fails := by
  intro x hx fails
  cases x with
  | logged event => exact fails
  | answered request answer =>
    obtain ⟨earlier, later, rfl⟩ := List.append_of_mem hx
    obtain ⟨-, _, herror, reports⟩ := hs.last run fails
    obtain rfl := Except.error.inj herror
    exact reports.category.elim hruntime hexec

/-! ## The parts of a push -/

/-- A call that is asked for a component is told of by its operation and the component. -/
theorem stops_ask {request : Request} (hrequest : request.executes = false) :
    (Script.ask ctx.component ctx.config.callDeadline request).Stops (ctx.Reports commands) := by
  intro answer
  cases answer with
  | reply value =>
    refine ⟨trivial, fun fails => ?_⟩
    cases request with
    | exec => cases hrequest
    | _ => exact fails.elim
  | refused reason => exact ⟨trivial, fun _ => .callRefused reason hrequest⟩
  | expired => exact ⟨trivial, fun _ => .callExpired hrequest⟩

theorem resolveVolumes_stops (components : List Component) (needsSupervisor : Bool) :
    (resolveVolumes ctx components needsSupervisor).Stops (ctx.Reports commands) :=
  Script.closed_stops.plain.resolveVolumes (fun _ hr => stops_ask (Request.executes_of_onVolumes hr))
    components needsSupervisor

theorem realizeOne_stops {b : Blueprint} {c : Component} :
    (b.realizeOne ctx c).Stops (ctx.Reports commands) :=
  Script.closed_stops.realizeOne fun _ _ _ hr => stops_ask (Request.executes_of_worksFor hr)

theorem realize_stops {b : Blueprint} : (b.realize ctx).Stops (ctx.Reports commands) :=
  Script.closed_stops.realize fun _ _ _ _ _ hr => stops_ask (Request.executes_of_worksFor hr)

section Commands

variable {command : Command} {container : ListedContainer}

/-- An exit code that does not tell of success ends the push with the code and the command. -/
theorem judge_quits {code : Int32} (hcode : code ≠ 0) (hcommand : commands command) (id : String)
    (argv : List String) (attach : Bool) :
    (command.judge code).Quits (ctx.Reports commands (.exec id argv attach) (.reply code)) := by
  have hfailed : isSuccess code = false := decide_eq_false hcode
  rw [Command.judge, hfailed]
  exact .commandFailed hcommand

theorem judge_stops (code : Int32) : (command.judge code).Stops (ctx.Reports commands) := by
  by_cases hcode : isSuccess code = true
  · rw [Command.judge, if_pos hcode]
    trivial
  · rw [Command.judge, if_neg hcode]
    trivial

theorem execute_stops (hcommand : commands command) (argv : List String) :
    (command.execute ctx container argv).Stops (ctx.Reports commands) := by
  intro answer
  cases answer with
  | reply code =>
    refine ⟨judge_stops code, fun fails => judge_quits ?_ hcommand _ _ _⟩
    intro hcode
    exact fails (congrArg Answer.reply hcode)
  | refused reason => exact ⟨trivial, fun _ => .commandRefused reason hcommand⟩
  | expired => exact ⟨trivial, fun _ => .commandExpired hcommand⟩

theorem runAll_stops {s : CommandSelection} {allKept : Bool} {containers : List ListedContainer}
    (hcommands : ∀ gc ∈ s.commands, commands gc.2) :
    (CommandSelection.runAll ctx s allKept containers).Stops (ctx.Reports commands) :=
  Script.closed_stops.plain.runAll fun gc hgc _ argv => execute_stops (hcommands gc hgc) argv

end Commands

namespace Push

variable {p : Push} {config : ValidConfig} {listing : UrlListing}

/-- Whether a push has a command. -/
def Has (p : Push) (command : Command) : Prop := ∃ group, (group, command) ∈ p.commands.commands

theorem reconciliation_stops :
    (p.reconciliation config listing).Stops ((p.context config).Reports p.Has) :=
  (Script.closed_stops.notes _).bind fun _ => (Script.closed_stops.plain.ofExcept _).bind fun _ =>
    (resolveVolumes_stops _ _).bind fun _ => realize_stops

theorem execution_stops (containers : ContainerReport) :
    (p.execution config containers).Stops ((p.context config).Reports p.Has) :=
  (stops_ask rfl).bind fun _ => (runAll_stops fun gc hgc => ⟨gc.1, hgc⟩).bind fun _ => trivial

/-- **Stopping.** A push stops at each call that fails, with an error that tells of it. -/
theorem script_stops : (p.script config listing).Stops ((p.context config).Reports p.Has) :=
  (Script.closed_stops.plain.ofExcept _).bind fun _ => reconciliation_stops.bind fun _ => execution_stops _

end Push

end DevfilePush
