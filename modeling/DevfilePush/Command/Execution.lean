import DevfilePush.Command.Actions
import DevfilePush.Context
import DevfilePush.Engine.Script
import DevfilePush.Text.Within

/-!
# Running commands

The init, build and run commands run in this order, each in the container of the alias that it names.
The first failure ends all.

## Main definitions

* `ActionRecord`, `CommandReport`: the actions that were done.
* `Command.execute`: words in a container, with a deadline.
* `Command.act`: one action.
* `CommandSelection.runAll`: all commands of a push.
-/

namespace DevfilePush

/-- An action that was done. -/
structure ActionRecord where
  group : CommandGroup
  commandId : String
  action : Action
  /-- Whether anything was executed for it. -/
  executed : Bool
  deriving DecidableEq, Repr

/-- The actions of commands that all ran to their end. -/
structure CommandReport where
  records : List ActionRecord
  deriving DecidableEq, Repr

/-- The actions for which something was executed. -/
def CommandReport.executed (r : CommandReport) : List (CommandGroup × Action) :=
  (r.records.filter (·.executed)).map fun record => (record.group, record.action)

/-- Whether an exit code tells of success. -/
def isSuccess (code : Int32) : Bool := code = 0

/-- Whether the supervisor is what a container runs, going by its command line. -/
def Supervisor.runsIn (s : Supervisor) (container : ListedContainer) : Bool :=
  Text.occursIn s.binaryPath container.command

theorem Supervisor.runsIn_iff {s : Supervisor} {container : ListedContainer} :
    s.runsIn container = true ↔ s.binaryPath.toList <:+: container.command.toList :=
  Text.occursInChars_iff

variable (ctx : Context)

namespace Command

variable (command : Command)

/-- What an exit code means for a command. -/
def judge (code : Int32) : Script Unit :=
  if isSuccess code then .done ()
  else .fail (.commandFailed command.id command.component code)

/-- Executes words in a container for a command. -/
def execute (container : ListedContainer) (argv : List String) : Script Unit := do
  Script.note (.exec container.id argv)
  .call (.exec container.id argv ctx.config.showOutput) ctx.config.execDeadline fun
    | .reply code => command.judge code
    | .refused reason => .fail (.commandRefused command.id command.component reason)
    | .expired =>
      .fail (.callExpired ("command '" ++ command.id ++ "' in '" ++ command.component ++ "'")
        ctx.config.execDeadline)

/-- Does one action; the answer is whether anything was executed. -/
def act (container : ListedContainer) (action : Action) : Script Bool := do
  let supervisor := ctx.config.supervisor
  match action with
  | .shell =>
    command.execute ctx container command.shellWords
    return true
  | .launchSupervisor =>
    if supervisor.runsIn container then
      Script.note (.supervisorRuns ctx.component command.component)
      return false
    else
      command.execute ctx container supervisor.daemonWords
      return true
  | .restart =>
    command.execute ctx container supervisor.stopWords
    command.execute ctx container supervisor.startWords
    return true
  | .start =>
    Script.note (.notRestarting command.id)
    command.execute ctx container supervisor.startWords
    return true

/-- Does actions in order. -/
def actEach (group : CommandGroup) (container : ListedContainer) :
    List Action → Script (List ActionRecord)
  | [] => return []
  | action :: rest => do
    let executed ← command.act ctx container action
    let records ← actEach group container rest
    return ⟨group, command.id, action, executed⟩ :: records

/-- The first container labelled with the alias that a command names. -/
def target (containers : List ListedContainer) : Except PushError ListedContainer :=
  match containers.find? fun c => c.alias? = some command.component with
  | some container => .ok container
  | none =>
    .error (.misconfigured (.missingContainer command.id command.component ctx.component))

/-- Runs a command that is taken as one of a group. -/
def run (group : CommandGroup) (allKept : Bool) (containers : List ListedContainer) :
    Script (List ActionRecord) :=
  match command.actions group allKept with
  | [] => do
    Script.note (.skippedCommand ctx.component group command.id)
    return []
  | actions => do
    let container ← Script.ofExcept (command.target ctx containers)
    Script.note (.executing ctx.component group command)
    command.actEach ctx group container actions

end Command

namespace CommandSelection

/-- Runs commands in order. -/
def runEach (allKept : Bool) (containers : List ListedContainer) :
    List (CommandGroup × Command) → Script (List ActionRecord)
  | [] => return []
  | (group, command) :: rest => do
    let first ← command.run ctx group allKept containers
    let others ← runEach allKept containers rest
    return first ++ others

/-- Runs the selected commands in the containers that are there, all of them kept by the push or not. -/
def runAll (s : CommandSelection) (allKept : Bool) (containers : List ListedContainer) :
    Script CommandReport :=
  if s.isEmpty then .fail (.misconfigured .noCommands)
  else do
    let records ← runEach ctx allKept containers s.commands
    return ⟨records⟩

end CommandSelection

end DevfilePush
