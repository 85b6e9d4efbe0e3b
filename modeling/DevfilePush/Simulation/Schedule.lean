import DevfilePush.Simulation.Lot
import DevfilePush.Simulation.Pool

/-!
# Pushes at once and pushes in turn

The same pushes, carried out in two ways: at once, where their calls are made in any order that the locks
permit and no push is dropped, and in turn, where each is over before the next begins. What falls to the
calls of a push is given beforehand, so that it does not depend on when they are made.

## Main definitions

* `Schedule`: pushes that are carried out at once, with the order in which they got their locks.
* `Schedule.Step`, `Schedule.Reaches`: what can happen next, and after any number of steps.
* `InTurn`: pushes that are carried out one after another.
-/

namespace DevfilePush

/-- Pushes that are carried out at once. -/
structure Schedule where
  pool : Pool
  /-- What will fall to the calls that each push has still to make. -/
  lots : Nat → List Lot
  /-- The pushes that have got their locks, in the order in which they got them. -/
  order : List Nat

namespace Schedule

variable (commandLine : ContainerConfig → String) (config : ValidConfig)

/-- One thing that can happen next. -/
inductive Step (s : Schedule) : Schedule → Prop
  /-- A push begins and does not pass its checks. -/
  | refuse {n : Nat} {task : PushTask} {error : PushError}
      (found : s.pool.tasks[n]? = some task) (idle : task.stage = .idle)
      (fails : task.push.check = .error error) :
      Step s { s with pool := s.pool.put n task (.ended (.error error)) }
  /-- A push begins, passes its checks and asks for its lock. -/
  | begin {n : Nat} {task : PushTask}
      (found : s.pool.tasks[n]? = some task) (idle : task.stage = .idle)
      (passes : task.push.check = .ok ()) :
      Step s { s with pool := s.pool.enter n task (task.push.session config task.listing) }
  /-- A push whose turn it is at its lock gets it. -/
  | acquire {n : Nat} {task : PushTask} {session : Script PushReport}
      (found : s.pool.tasks[n]? = some task) (engaged : task.stage = .engaged session)
      (owns : s.pool.locks.owns n = true) (new : n ∉ s.order) :
      Step s { s with order := s.order ++ [n] }
  /-- A push that has got its lock makes its next call. -/
  | call {n : Nat} {task : PushTask} {session : Script PushReport} {request : Request}
      {next : Answer request.Reply → Script PushReport} {lot : Lot} {rest : List Lot}
      {answer : Answer request.Reply}
      (found : s.pool.tasks[n]? = some task) (engaged : task.stage = .engaged session)
      (got : n ∈ s.order) (pauses : Pause.ofSession session = .calling request next)
      (falls : s.lots n = lot :: rest) (answers : lot.Answers s.pool.holdings request answer) :
      Step s {
        pool := (s.pool.put n task (.engaged (next answer))).hold
          (lot.leaves commandLine s.pool.holdings request)
        lots := fun m => if m = n then rest else s.lots m
        order := s.order }
  /-- A push that has got its lock comes to its end. -/
  | finish {n : Nat} {task : PushTask} {session : Script PushReport}
      {verdict : Except PushError PushReport}
      (found : s.pool.tasks[n]? = some task) (engaged : task.stage = .engaged session)
      (got : n ∈ s.order) (ends : Pause.ofSession session = .ended verdict) :
      Step s { s with pool := s.pool.exit n task (.ended verdict) }

/-- What any number of steps, one after another, can lead to. -/
inductive Reaches (s : Schedule) : Schedule → Prop
  | refl : Reaches s s
  | step {middle last : Schedule} (reached : Reaches s middle)
      (next : Step commandLine config middle last) : Reaches s last

/-- Pushes that have not begun, with what will fall to their calls. -/
def ofPushes (holdings : Holdings) (pushes : List (Push × UrlListing)) (lots : Nat → List Lot) :
    Schedule where
  pool := .ofPushes holdings pushes
  lots
  order := []

/-- A push has ended with a verdict. -/
def EndedWith (s : Schedule) (n : Nat) (verdict : Except PushError PushReport) : Prop :=
  ∃ task, s.pool.tasks[n]? = some task ∧ task.stage = .ended verdict

/-- Every push has ended. -/
def Complete (s : Schedule) : Prop :=
  ∀ n < s.pool.tasks.length, ∃ verdict, s.EndedWith n verdict

end Schedule

/-- Pushes, given by their numbers, are carried out one after another: the numbers with their verdicts in
this order, and what the engine holds in the end. -/
inductive InTurn (commandLine : ContainerConfig → String) (config : ValidConfig)
    (pushes : List (Push × UrlListing)) (lots : Nat → List Lot) (start : Holdings) :
    List (Nat × Except PushError PushReport) → Holdings → Prop
  | start : InTurn commandLine config pushes lots start [] start
  | push {past : List (Nat × Except PushError PushReport)} {n : Nat} {p : Push} {listing : UrlListing}
      {verdict : Except PushError PushReport} {middle after : Holdings}
      (earlier : InTurn commandLine config pushes lots start past middle)
      (found : pushes[n]? = some (p, listing))
      (run : (p.script config listing).Undergoes commandLine (lots n) middle verdict after) :
      InTurn commandLine config pushes lots start (past ++ [(n, verdict)]) after

end DevfilePush
