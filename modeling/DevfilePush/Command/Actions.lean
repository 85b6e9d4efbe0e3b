import DevfilePush.Config.Basic
import DevfilePush.Devfile.Basic

/-!
# What a command amounts to

Each command stands for some actions, which depend on its group and on whether the push kept all
containers; each action stands for words to execute in the command's container.

| group | some container is new | all were kept |
|---|---|---|
| init | shell | nothing |
| build | shell | shell |
| run | launch the supervisor, restart | restart, or start where the command says so |

## Main definitions

* `Action`, `Command.actions`
* `Command.shellWords`, `Supervisor.daemonWords`, `Supervisor.stopWords`, `Supervisor.startWords`
-/

namespace DevfilePush

/-- One of the things that a command stands for. -/
inductive Action where
  /-- The command's line, through the shell. -/
  | shell
  /-- The supervisor, unless it is the container's entrypoint. -/
  | launchSupervisor
  /-- Every supervised program stops, then the run program starts. -/
  | restart
  /-- The run program starts. -/
  | start
  deriving DecidableEq, Repr

namespace Action

/-- All actions. -/
def all : List Action := [.shell, .launchSupervisor, .restart, .start]

/-- The action's name. -/
def name : Action → String
  | shell => "shell"
  | launchSupervisor => "init-supervisor"
  | restart => "restart-run"
  | start => "start-run"

end Action

namespace Command

/-- The actions of a command that is taken as one of a group. -/
def actions (command : Command) (group : CommandGroup) (allKept : Bool) : List Action :=
  match group, allKept with
  | .init, true => []
  | .init, false => [.shell]
  | .build, _ => [.shell]
  | .run, false => [.launchSupervisor, .restart]
  | .run, true => if command.restarts then [.restart] else [.start]

/-- The shell with a command's line, in the command's directory. -/
def shellWords (command : Command) : List String :=
  let line := match command.directory? with
    | some dir => "cd " ++ dir ++ " && " ++ command.commandLine
    | none => command.commandLine
  [Conventions.shell, "-c", line]

end Command

namespace Supervisor

/-- Starts the supervisor in the background. -/
def daemonWords (s : Supervisor) : List String := [s.binaryPath, "-c", s.confFile, "-d"]

/-- Stops every supervised program. -/
def stopWords (s : Supervisor) : List String := [s.binaryPath, "ctl", "stop", "all"]

/-- Starts the run program. -/
def startWords (s : Supervisor) : List String := [s.binaryPath, "ctl", "start", s.program]

end Supervisor

end DevfilePush
