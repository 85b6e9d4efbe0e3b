import DevfilePush.Engine.Holdings
import DevfilePush.Engine.Script

/-!
# How an engine meets calls

An engine is not part of the program, so it is a parameter: a relation between what it holds before a
call, the answer that the caller gets and what it holds afterwards. What a push relies on is stated of
that relation. A script is run by meeting its calls one after another.

## Main definitions

* `Conduct`: how an engine meets calls.
* `Conduct.Honest`, `Conduct.KeepsIds`, `Conduct.Faultless`: what may be relied on.
* `Script.Runs`: a run of a script against an engine.
* `Script.Asks`: the calls that a script can make.
-/

namespace DevfilePush

/-- How an engine meets a call: what it held before, the call, the answer and what it holds after. -/
abbrev Conduct := Holdings → (r : Request) → Answer r.Reply → Holdings → Prop

namespace Conduct

/-- What is replied was done, and a call that is refused or outlasts its deadline was done or not. -/
structure Honest (engine : Conduct) : Prop where
  /-- A call that is replied was granted, with this reply. -/
  granted : ∀ {before : Holdings} {r : Request} {reply : r.Reply} {after : Holdings},
    engine before r (.reply reply) after → before.Grants r reply after
  /-- Whatever the answer, the call changed nothing or was granted. -/
  effect : ∀ {before : Holdings} {r : Request} {answer : Answer r.Reply} {after : Holdings},
    engine before r answer after → after = before ∨ ∃ reply, before.Grants r reply after

/-- Container ids stay distinct. -/
def KeepsIds (engine : Conduct) : Prop :=
  ∀ ⦃before : Holdings⦄ ⦃r : Request⦄ ⦃answer : Answer r.Reply⦄ ⦃after : Holdings⦄,
    engine before r answer after → before.DistinctIds → after.DistinctIds

/-- Every call that can be granted is replied. -/
def Faultless (engine : Conduct) : Prop :=
  ∀ ⦃before : Holdings⦄ ⦃r : Request⦄ ⦃answer : Answer r.Reply⦄ ⦃after : Holdings⦄,
    engine before r answer after → (∃ reply after', before.Grants r reply after') →
      ∃ reply, answer = .reply reply

end Conduct

/-- Something that happened in a run, a log event or an answered call. -/
inductive Happening where
  | logged (event : Event)
  | answered (request : Request) (answer : Answer request.Reply)

namespace Happening

/-- The call that was answered. -/
def call? : Happening → Option Request
  | answered request _ => some request
  | logged _ => none

/-- The event that was logged. -/
def event? : Happening → Option Event
  | logged event => some event
  | answered .. => none

end Happening

namespace Script

variable {α β : Type}

/-- A run against an engine: `s.Runs engine before trace verdict after` says that the script, started
when the engine held `before`, can end with `verdict` when the engine holds `after`, and that `trace`
is what happened meanwhile. -/
def Runs (engine : Conduct) :
    Script α → Holdings → List Happening → Except PushError α → Holdings → Prop
  | .done value, before, trace, verdict, after =>
    trace = [] ∧ verdict = .ok value ∧ after = before
  | .fail error, before, trace, verdict, after =>
    trace = [] ∧ verdict = .error error ∧ after = before
  | .log event next, before, trace, verdict, after =>
    ∃ rest, trace = .logged event :: rest ∧ next.Runs engine before rest verdict after
  | .call request _ next, before, trace, verdict, after =>
    ∃ answer middle rest, engine before request answer middle ∧
      trace = .answered request answer :: rest ∧ (next answer).Runs engine middle rest verdict after

/-- Every call that the script can make, whatever it is answered, is one of those. -/
def Asks (calls : Request → Prop) : Script α → Prop
  | .done _ => True
  | .fail _ => True
  | .log _ next => next.Asks calls
  | .call request _ next => calls request ∧ ∀ answer, (next answer).Asks calls

end Script

end DevfilePush
