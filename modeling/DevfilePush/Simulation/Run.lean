import DevfilePush.Engine.Script
import DevfilePush.Simulation.Bench

/-!
# Running a script

Runs a script against an engine with faults, call by call. A run may be called off after some virtual
time: it then stops at the first call that takes longer than what is left, that call never happens,
and the steps still open are closed as failed, innermost first.

## Main definitions

* `Entry`: something seen of a run, a log event or a call.
* `Script.run`: a run with its verdict, the engine afterwards and all that was seen.
-/

namespace DevfilePush

/-- Something seen of a run. -/
inductive Entry where
  | logged (event : Event)
  | called (request : Request)
  deriving DecidableEq

/-- How a run ends. -/
inductive Verdict (α : Type) where
  | value (value : α)
  | error (error : PushError)
  /-- The run was called off. -/
  | cancelled

/-- A run. -/
structure Run (α : Type) where
  verdict : Verdict α
  bench : Bench
  seen : List Entry

namespace Run

variable {α : Type}

/-- A run with something seen before it. -/
def after (entry : Entry) (run : Run α) : Run α := { run with seen := entry :: run.seen }

/-- The calls of a run. -/
def calls (run : Run α) : List Request :=
  run.seen.filterMap fun
    | .called request => some request
    | .logged _ => none

/-- The log of a run. -/
def events (run : Run α) : List Event :=
  run.seen.filterMap fun
    | .logged event => some event
    | .called _ => none

end Run

/-- The steps still open after an event, innermost first. -/
def Event.openAfter (steps : List String) : Event → List String
  | .started step => step :: steps
  | .finished _ | .failed _ => steps.tail
  | _ => steps

/-- Runs a script with so many milliseconds left, if there is a limit, and with steps open. -/
def Script.run {α : Type} (bench : Bench) (left : Option Nat) (steps : List String) :
    Script α → Run α
  | .done value => ⟨.value value, bench, []⟩
  | .fail error => ⟨.error error, bench, []⟩
  | .log event next => (next.run bench left (event.openAfter steps)).after (.logged event)
  | .call request deadline next =>
    let service := bench.serve request deadline
    if left.any (· < service.wait) then
      ⟨.cancelled, { bench with rules := service.bench.rules },
        .called request :: steps.map (.logged ∘ .failed)⟩
    else
      ((next service.answer).run service.bench (left.map (· - service.wait)) steps).after
        (.called request)

end DevfilePush
