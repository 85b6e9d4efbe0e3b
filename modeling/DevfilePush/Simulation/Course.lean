import DevfilePush.Engine.Conduct
import DevfilePush.Simulation.Fate

/-!
# The course of a script

Runs a script against an engine in memory with the fates of its calls given beforehand. There is no
clock: whatever may go wrong is in the fates.

## Main definitions

* `Course`: how a script ends, with what happened until then.
* `Script.follow`: the course of a script.

A course of two scripts is the course of the first and then of the second with the fates that are left
(`Script.follow_bind`).
-/

namespace DevfilePush

/-- The course of a script. -/
structure Course (α : Type) where
  verdict : Except PushError α
  /-- The engine afterwards. -/
  engine : MemoryEngine
  /-- The fates that were not met. -/
  fates : List Fate
  happenings : List Happening

namespace Course

variable {α : Type}

/-- A course with some happenings before it. -/
def after (earlier : List Happening) (c : Course α) : Course α :=
  { c with happenings := earlier ++ c.happenings }

/-- The calls of a course. -/
def calls (c : Course α) : List Request := c.happenings.filterMap (·.call?)

/-- The log of a course. -/
def events (c : Course α) : List Event := c.happenings.filterMap (·.event?)

@[simp] theorem after_nil (c : Course α) : c.after [] = c := rfl

@[simp] theorem after_after (a b : List Happening) (c : Course α) :
    (c.after b).after a = c.after (a ++ b) := by
  simp [after]

@[simp] theorem verdict_after (earlier : List Happening) (c : Course α) :
    (c.after earlier).verdict = c.verdict := rfl

@[simp] theorem fates_after (earlier : List Happening) (c : Course α) :
    (c.after earlier).fates = c.fates := rfl

@[simp] theorem calls_after (earlier : List Happening) (c : Course α) :
    (c.after earlier).calls = earlier.filterMap (·.call?) ++ c.calls := by
  simp [calls, after]

end Course

namespace Script

variable {α β : Type}

/-- Runs a script against an engine; calls beyond the given fates are served. -/
def follow (engine : MemoryEngine) (fates : List Fate) : Script α → Course α
  | .done value => ⟨.ok value, engine, fates, []⟩
  | .fail error => ⟨.error error, engine, fates, []⟩
  | .log event next => (next.follow engine fates).after [.logged event]
  | .call request _ next =>
    let (answer, engine) := engine.meet request (fates.headD (.served 0))
    ((next answer).follow engine fates.tail).after [.answered request answer]

/-- The second of two scripts goes on where the first ended. -/
theorem follow_bind (s : Script α) (f : α → Script β) (engine : MemoryEngine) (fates : List Fate) :
    (s >>= f).follow engine fates =
      match (s.follow engine fates).verdict with
      | .ok value =>
        ((f value).follow (s.follow engine fates).engine (s.follow engine fates).fates).after
          (s.follow engine fates).happenings
      | .error error => { s.follow engine fates with verdict := .error error } := by
  induction s generalizing engine fates with
  | done value => rfl
  | fail error => rfl
  | log event next ih =>
    simp only [log_bind, follow, ih, Course.after]
    split <;> simp
  | call request deadline next ih =>
    simp only [call_bind, follow, ih, Course.after]
    split <;> simp

section

variable {s : Script α} {f : α → Script β} {engine : MemoryEngine} {fates : List Fate}

theorem follow_bind_of_ok {value : α} (h : (s.follow engine fates).verdict = .ok value) :
    (s >>= f).follow engine fates =
      ((f value).follow (s.follow engine fates).engine (s.follow engine fates).fates).after
        (s.follow engine fates).happenings := by
  rw [follow_bind, h]

theorem follow_bind_of_error {e : PushError} (h : (s.follow engine fates).verdict = .error e) :
    (s >>= f).follow engine fates = { s.follow engine fates with verdict := .error e } := by
  rw [follow_bind, h]

end

end Script

end DevfilePush
