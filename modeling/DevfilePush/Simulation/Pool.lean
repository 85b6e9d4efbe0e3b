import DevfilePush.Engine.Conduct
import DevfilePush.Lock.Registry
import DevfilePush.Push

/-!
# Several pushes at once

Pushes that share an engine and one registry of locks. Each goes on by itself, one call at a time, in
any order, and the engine meets each call in any way that its conduct allows. A push may be dropped at
any point, and then the call that it waits for happens or never will. A push makes calls only while it
owns its component's lock, and it lets the lock go when it ends or is dropped.

## Main definitions

* `PushTask`: one of the pushes and how far it has come.
* `Pool`: what the engine holds, the locks and the pushes.
* `Pool.Step`, `Pool.Reaches`: what can happen next, and after any number of steps.
-/

namespace DevfilePush

/-- How far a push has come. -/
inductive Stage where
  /-- It has not begun. -/
  | idle
  /-- It has asked for its component's lock; this is what it has still to do. -/
  | engaged (session : Script PushReport)
  /-- It has ended. -/
  | ended (verdict : Except PushError PushReport)
  /-- It was dropped before it ended. -/
  | dropped

/-- A push among others. -/
structure PushTask where
  push : Push
  /-- What loading its URLs gives. -/
  listing : UrlListing
  stage : Stage

/-- Pushes that share an engine and the locks. Each asks for its lock as the party of its number. -/
structure Pool where
  /-- What the engine holds. -/
  holdings : Holdings
  locks : LockRegistry
  tasks : List PushTask

/-- What a script does next, its log left aside. -/
inductive Pause where
  /-- It has ended. -/
  | ended (verdict : Except PushError PushReport)
  /-- It makes a call and goes on as the answer says. -/
  | calling (request : Request) (next : Answer request.Reply → Script PushReport)

/-- What a session does next. -/
def Pause.ofSession : Script PushReport → Pause
  | .done outcome => ended (.ok outcome)
  | .fail error => ended (.error error)
  | .log _ next => ofSession next
  | .call request _ next => calling request next

namespace Pool

/-- Puts a push at another stage. -/
def put (pool : Pool) (number : Nat) (task : PushTask) (stage : Stage) : Pool :=
  { pool with tasks := pool.tasks.set number { task with stage } }

/-- A push asks for its lock and waits for its turn. -/
def enter (pool : Pool) (number : Nat) (task : PushTask) (session : Script PushReport) : Pool :=
  { pool.put number task (.engaged session) with
    locks := pool.locks.arrive task.push.component number }

/-- A push ends or is dropped, which lets its lock go. -/
def exit (pool : Pool) (number : Nat) (task : PushTask) (stage : Stage) : Pool :=
  { pool.put number task stage with locks := pool.locks.leave number }

/-- The engine holds something else. -/
def hold (pool : Pool) (holdings : Holdings) : Pool := { pool with holdings }

/-- One thing that can happen next, where the engine meets calls in one of the ways of its conduct. -/
inductive Step (engine : Conduct) (config : ValidConfig) (pool : Pool) : Pool → Prop
  /-- A push begins and does not pass its checks. -/
  | refuse {n : Nat} {task : PushTask} {error : PushError}
      (found : pool.tasks[n]? = some task) (idle : task.stage = .idle)
      (fails : task.push.check = .error error) :
      Step engine config pool (pool.put n task (.ended (.error error)))
  /-- A push begins, passes its checks and asks for its lock. -/
  | begin {n : Nat} {task : PushTask}
      (found : pool.tasks[n]? = some task) (idle : task.stage = .idle)
      (passes : task.push.check = .ok ()) :
      Step engine config pool (pool.enter n task (task.push.session config task.listing))
  /-- A push that owns its lock makes its next call, which the engine meets. -/
  | call {n : Nat} {task : PushTask} {session : Script PushReport} {request : Request}
      {next : Answer request.Reply → Script PushReport} {answer : Answer request.Reply}
      {after : Holdings}
      (found : pool.tasks[n]? = some task) (engaged : task.stage = .engaged session)
      (owns : pool.locks.owns n = true)
      (pauses : Pause.ofSession session = .calling request next)
      (meets : engine pool.holdings request answer after) :
      Step engine config pool ((pool.put n task (.engaged (next answer))).hold after)
  /-- A push that owns its lock comes to its end. -/
  | finish {n : Nat} {task : PushTask} {session : Script PushReport}
      {verdict : Except PushError PushReport}
      (found : pool.tasks[n]? = some task) (engaged : task.stage = .engaged session)
      (owns : pool.locks.owns n = true) (ends : Pause.ofSession session = .ended verdict) :
      Step engine config pool (pool.exit n task (.ended verdict))
  /-- A push is dropped before it begins. -/
  | forget {n : Nat} {task : PushTask}
      (found : pool.tasks[n]? = some task) (idle : task.stage = .idle) :
      Step engine config pool (pool.put n task .dropped)
  /-- A push is dropped while it waits for its lock, or owns it; a call that it waits for never
  happens. -/
  | drop {n : Nat} {task : PushTask} {session : Script PushReport}
      (found : pool.tasks[n]? = some task) (engaged : task.stage = .engaged session) :
      Step engine config pool (pool.exit n task .dropped)
  /-- A push is dropped while it waits for the answer to a call, which the engine meets all the same. -/
  | dropCalling {n : Nat} {task : PushTask} {session : Script PushReport} {request : Request}
      {next : Answer request.Reply → Script PushReport} {answer : Answer request.Reply}
      {after : Holdings}
      (found : pool.tasks[n]? = some task) (engaged : task.stage = .engaged session)
      (owns : pool.locks.owns n = true)
      (pauses : Pause.ofSession session = .calling request next)
      (meets : engine pool.holdings request answer after) :
      Step engine config pool ((pool.exit n task .dropped).hold after)

/-- What any number of steps, one after another, can lead to. -/
inductive Reaches (engine : Conduct) (config : ValidConfig) (pool : Pool) : Pool → Prop
  | refl : Reaches engine config pool pool
  | step {middle last : Pool} (reached : Reaches engine config pool middle)
      (next : Step engine config middle last) : Reaches engine config pool last

/-- Pushes that have not begun, with an engine and nobody at any lock. -/
def ofPushes (holdings : Holdings) (pushes : List (Push × UrlListing)) : Pool where
  holdings
  locks := .empty
  tasks := pushes.map fun (push, listing) => ⟨push, listing, .idle⟩

end Pool

end DevfilePush
