import DevfilePush.Engine.Request
import DevfilePush.Event

/-!
# Scripts

A push as a tree of what it does: it ends with a value or an error, or it logs an event and goes on,
or it asks the engine and goes on as the answer says. A script holds no engine and no clock, so the
same one can be run against an engine in memory, interleaved with others, or met with any failures.

## Main definitions

* `Script`: the tree, and its monad.
* `Script.ask`: a call whose failures become errors of the push.
* `Script.step`: a script announced by a log event and closed by exactly one other.

## Laws

Sequencing is associative and has `done` as its unit on both sides (`Script.instLawfulMonad`).
-/

namespace DevfilePush

/-- What a push does, up to the answers it is given. -/
inductive Script (α : Type) where
  /-- Ends with a value. -/
  | done (value : α)
  /-- Ends with an error. -/
  | fail (error : PushError)
  /-- Logs an event. -/
  | log (event : Event) (next : Script α)
  /-- Asks the engine and waits until the deadline at most. -/
  | call (request : Request) (deadline : Duration) (next : Answer request.Reply → Script α)

namespace Script

variable {α β γ : Type}

/-- Goes on with `f` where the script ends with a value. -/
def bind : Script α → (α → Script β) → Script β
  | done a, f => f a
  | fail e, _ => fail e
  | log event next, f => log event (next.bind f)
  | call request deadline next, f => call request deadline fun answer => (next answer).bind f

instance : Monad Script where
  pure := done
  bind := bind

@[simp] theorem pure_eq (a : α) : (pure a : Script α) = done a := rfl
@[simp] theorem done_bind (a : α) (f : α → Script β) : (done a >>= f) = f a := rfl
@[simp] theorem fail_bind (e : PushError) (f : α → Script β) : (fail e >>= f) = fail e := rfl
@[simp] theorem log_bind (event : Event) (next : Script α) (f : α → Script β) :
    (log event next >>= f) = log event (next >>= f) := rfl
@[simp] theorem call_bind (request : Request) (deadline : Duration)
    (next : Answer request.Reply → Script α) (f : α → Script β) :
    (call request deadline next >>= f) = call request deadline fun answer => next answer >>= f := rfl

theorem bind_done (s : Script α) : (s >>= done) = s := by
  induction s with
  | done | fail => rfl
  | log event next ih => exact congrArg (log event) ih
  | call request deadline next ih => exact congrArg (call request deadline) (funext ih)

theorem bind_assoc (s : Script α) (f : α → Script β) (g : β → Script γ) :
    ((s >>= f) >>= g) = (s >>= fun a => f a >>= g) := by
  induction s with
  | done | fail => rfl
  | log event next ih => exact congrArg (log event) ih
  | call request deadline next ih => exact congrArg (call request deadline) (funext ih)

instance instLawfulMonad : LawfulMonad Script :=
  LawfulMonad.mk' Script bind_done (fun _ _ => rfl) bind_assoc

/-- Logs one event. -/
def note (event : Event) : Script Unit := log event (done ())

/-- Logs events in order. -/
def notes (events : List Event) : Script Unit := events.forM note

/-- Ends as a computation without effects ends. -/
def ofExcept : Except PushError α → Script α
  | .ok a => done a
  | .error e => fail e

/-- Asks the engine on behalf of a component. A refusal becomes an error that names the operation and
the component, and so does an expired deadline. -/
def ask (component : String) (deadline : Duration) (request : Request) : Script request.Reply :=
  call request deadline fun
    | .reply value => done value
    | .refused reason => fail (.callRefused request.operation component reason)
    | .expired => fail (.callExpired (request.operation ++ " (" ++ component ++ ")") deadline)

/-- Closes a step where the script ends, as finished or as failed. -/
def closing (message : String) : Script α → Script α
  | done a => log (.closing message true) (done a)
  | fail e => log (.closing message false) (fail e)
  | log event next => log event (next.closing message)
  | call request deadline next => call request deadline fun answer => (next answer).closing message

/-- A step that the log announces by its message and closes as finished or failed. -/
def step (message : String) (body : Script α) : Script α :=
  log (.started message) (body.closing message)

end Script

end DevfilePush
