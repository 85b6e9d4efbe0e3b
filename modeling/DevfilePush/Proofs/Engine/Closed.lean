import DevfilePush.Engine.Script

/-!
# Properties that sequencing keeps

What holds of the calls of a script often holds of the whole script, because it holds of every script
that only ends and because sequencing keeps it. Such a property is then a property of a push as soon as
it holds of the push's calls; how the calls are put together is gone through once for all of them.

## Main definitions

* `Event.isStep`: an event that opens or closes a step.
* `Script.Composes`: a property that sequencing keeps.
* `Script.Plain`: one that also holds of scripts that fail or log, where no step is opened or closed.
* `Script.Closed`: one that holds of whatever is logged, and that closing a step keeps.

## Main statements

* `Script.Plain.ofExcept`, `Script.Plain.ofExcept_bind`
* `Script.Closed.step`, `Script.Closed.notes`
-/

namespace DevfilePush

/-- Whether an event opens or closes a step. -/
def Event.isStep : Event → Bool
  | .started _ | .finished _ | .failed _ => true
  | _ => false

namespace Script

/-- A property of scripts that holds of those that end with a value and that sequencing keeps. -/
structure Composes (P : ∀ α : Type, Script α → Prop) : Prop where
  done : ∀ {α : Type} (value : α), P α (.done value)
  bind : ∀ {α β : Type} {s : Script α} {f : α → Script β},
    P α s → (∀ value, P β (f value)) → P β (s >>= f)

/-- A property of scripts that holds of all without calls and steps, however they end, and that passes
from the parts of a script to the whole, as long as it has no steps. -/
structure Plain (P : ∀ α : Type, Script α → Prop) : Prop extends Composes P where
  fail : ∀ {α : Type} (error : PushError), P α (.fail error)
  note : ∀ event : Event, event.isStep = false → P Unit (note event)

/-- A property of scripts that holds of all without calls, whatever they log and however they end, and
that passes from the parts of a script to the whole. -/
structure Closed (P : ∀ α : Type, Script α → Prop) : Prop extends Composes P where
  fail : ∀ {α : Type} (error : PushError), P α (.fail error)
  note : ∀ event, P Unit (note event)
  closing : ∀ {α : Type} {s : Script α}, P α s → ∀ message, P α (s.closing message)

variable {α β : Type} {P : ∀ α : Type, Script α → Prop}

namespace Plain

theorem ofExcept (plain : Plain P) (x : Except PushError α) : P α (ofExcept x) := by
  cases x with
  | ok value => exact plain.done value
  | error e => exact plain.fail e

/-- What follows a computation without effects needs to be looked at only for the value it has. -/
theorem ofExcept_bind (plain : Plain P) {x : Except PushError α} {f : α → Script β}
    (hf : ∀ value, x = .ok value → P β (f value)) : P β (Script.ofExcept x >>= f) := by
  cases x with
  | ok value => exact hf value rfl
  | error e => exact plain.fail e

end Plain

namespace Closed

theorem plain (closed : Closed P) : Plain P where
  toComposes := closed.toComposes
  fail := closed.fail
  note event _ := closed.note event

theorem step (closed : Closed P) {s : Script α} (hs : P α s) (message : String) :
    P α (step message s) :=
  closed.bind (f := fun _ => s.closing message) (closed.note (.started message)) fun _ =>
    closed.closing hs message

theorem notes (closed : Closed P) (events : List Event) : P Unit (notes events) := by
  induction events with
  | nil => exact closed.done ()
  | cons event events ih => exact closed.bind (closed.note event) fun _ => ih

end Closed

end Script

end DevfilePush
