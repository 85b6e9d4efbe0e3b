import DevfilePush.Simulation.Engine

/-!
# What becomes of a call

A call to an engine may happen, or be refused, or go unanswered until its deadline. The one who asked
learns only the answer: a call that was refused or went unanswered may have happened all the same.

## Main definitions

* `Fate`: what becomes of a call.
* `MemoryEngine.meet`: the answer to a call and the engine afterwards.

The engine afterwards is the one in which the call happened or the one before (`MemoryEngine.meet_snd`).
-/

namespace DevfilePush

/-- What becomes of a call. -/
inductive Fate where
  /-- It happens and is answered; a command ends with the exit code. -/
  | served (exitCode : Int32)
  /-- It is refused for a reason, and yet may have happened. -/
  | refused (reason : String) (happened : Bool)
  /-- It is not answered in time, and yet may have happened. -/
  | expired (happened : Bool)
  deriving DecidableEq, Repr

/-- Whether a call of this fate happens. -/
def Fate.happens : Fate → Bool
  | served _ => true
  | refused _ happened | expired happened => happened

namespace MemoryEngine

/-- The engine after a call that may have happened. -/
def afterCall (e : MemoryEngine) (r : Request) (happened : Bool) : MemoryEngine :=
  if happened then (e.perform 0 r).2 else e

/-- The answer to a call of a given fate, and the engine afterwards. -/
def meet (e : MemoryEngine) (r : Request) (fate : Fate) : Answer r.Reply × MemoryEngine :=
  match fate with
  | .served exitCode =>
    match e.perform exitCode r with
    | (.ok reply, after) => (.reply reply, after)
    | (.error reason, after) => (.refused reason, after)
  | .refused reason happened => (.refused reason, e.afterCall r happened)
  | .expired happened => (.expired, e.afterCall r happened)

/-- An exit code changes only what a command is answered. -/
theorem perform_snd (e : MemoryEngine) (exitCode : Int32) (r : Request) :
    (e.perform exitCode r).2 = (e.perform 0 r).2 := by
  cases r <;> rfl

@[simp] theorem meet_snd (e : MemoryEngine) (r : Request) (fate : Fate) :
    (e.meet r fate).2 = e.afterCall r fate.happens := by
  cases fate with
  | served exitCode =>
    simp only [meet, Fate.happens, afterCall, if_true, ← perform_snd e exitCode r]
    split <;> simp_all
  | refused | expired => rfl

end MemoryEngine

end DevfilePush
