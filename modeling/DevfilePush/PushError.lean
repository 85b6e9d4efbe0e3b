import DevfilePush.Devfile.Basic
import DevfilePush.Duration

/-!
# Errors

Why a push, or one of its parts, fails. An error is its cause; the wording is given by `message` alone,
and `category` sorts the causes by what a caller can do about them.

## Main definitions

* `Misconfiguration`, `InvalidValue`, `InternalFault`: causes found without asking the engine.
* `PushError`: every cause.
* `PushError.message`, `PushError.category`, `PushError.isConflict`.
-/

namespace DevfilePush

/-- Declarations that cannot be pushed together. -/
inductive Misconfiguration where
  /-- No container is declared. -/
  | noComponents
  /-- No command is selected. -/
  | noCommands
  /-- The chosen command is not among the group's. -/
  | unknownCommand (id : String) (group : CommandGroup)
  /-- Several commands of a group and none of them the default. -/
  | noDefault (group : CommandGroup)
  /-- Several default commands of a group. -/
  | severalDefaults (group : CommandGroup) (count : Nat)
  /-- A command names a container that is not declared. -/
  | undeclaredTarget (group : CommandGroup) (id aliasName : String)
  /-- A command names a container that does not run. -/
  | missingContainer (id aliasName component : String)
  /-- Any other reason, in words. -/
  | other (text : String)
  deriving DecidableEq, Repr

namespace Misconfiguration

/-- The reason in words. -/
def message : Misconfiguration → String
  | noComponents => "no valid components found in the devfile"
  | noCommands => "error executing devfile commands - there should be at least 1 command"
  | unknownCommand id group =>
    "the command \"" ++ id ++ "\" is not found in the devfile or is not a " ++ group.name ++ " command"
  | noDefault group =>
    "there should be exactly one default " ++ group.name ++ " command, found none"
  | severalDefaults group count =>
    "there should be exactly one default " ++ group.name ++ " command, found " ++ toString count
  | undeclaredTarget group id aliasName =>
    group.name ++ " command '" ++ id ++ "' targets container '" ++ aliasName ++
      "' which is not declared in the devfile"
  | missingContainer id aliasName component =>
    "command '" ++ id ++ "' targets container '" ++ aliasName ++
      "' which does not exist in component '" ++ component ++ "'"
  | other text => text

end Misconfiguration

/-- Values that are refused on their own. -/
inductive InvalidValue where
  | emptyAlias
  | noImage (aliasName : String)
  | emptyEnvName (aliasName : String)
  | repeatedEnv (aliasName name : String)
  | repeatedAlias (aliasName : String)
  /-- The host address is not one of the loopback addresses. -/
  | hostIp (text : String)
  | zeroTimeout
  | emptySupervisor
  /-- A configuration of so many bytes. -/
  | configTooLarge (size limit : Nat)
  /-- The environment file at this path. -/
  | envFileTooLarge (path : String) (limit : Nat)
  /-- Any other reason, in words. -/
  | other (text : String)
  deriving DecidableEq, Repr

namespace InvalidValue

/-- The reason in words. -/
def message : InvalidValue → String
  | emptyAlias => "component alias cannot be empty"
  | noImage aliasName => "component '" ++ aliasName ++ "' has no image"
  | emptyEnvName aliasName =>
    "component '" ++ aliasName ++ "' declares an env var with an empty name"
  | repeatedEnv aliasName name =>
    "component '" ++ aliasName ++ "' declares env var '" ++ name ++ "' more than once"
  | repeatedAlias aliasName =>
    "container alias '" ++ aliasName ++ "' is declared more than once"
  | hostIp text => "host ip '" ++ text ++ "' must be a loopback address"
  | zeroTimeout => "timeouts must be greater than zero"
  | emptySupervisor => "supervisor binary path and program cannot be empty"
  | configTooLarge size limit =>
    "config size " ++ toString size ++ " exceeds limit of " ++ toString limit
  | envFileTooLarge path limit =>
    "env file " ++ path ++ " exceeds limit of " ++ toString limit ++ " bytes"
  | other text => text

end InvalidValue

/-- Steps taken out of order by the program itself. -/
inductive InternalFault where
  /-- A declared volume has no resolved name. -/
  | unresolvedVolume (name aliasName : String)
  /-- The run container needs the supervisor volume, which has no resolved name. -/
  | unresolvedSupervisor (aliasName : String)
  /-- Any other reason, in words. -/
  | other (text : String)
  deriving DecidableEq, Repr

namespace InternalFault

/-- The reason in words. -/
def message : InternalFault → String
  | unresolvedVolume name aliasName =>
    "volume '" ++ name ++ "' of container '" ++ aliasName ++ "' was not resolved"
  | unresolvedSupervisor aliasName =>
    "supervisor volume for container '" ++ aliasName ++ "' was not resolved"
  | other text => text

end InternalFault

/-- What a caller can do about an error. -/
inductive ErrorCategory where
  /-- Mend the declarations. -/
  | configuration
  /-- Remove duplicate resources by hand. -/
  | conflict
  /-- Make the exposed URL anew. -/
  | portMapping
  /-- Look after the engine. -/
  | runtime
  /-- Look after the command. -/
  | commandExec
  /-- Anything else. -/
  | other
  deriving DecidableEq, Repr

namespace ErrorCategory

/-- The category's name. -/
def name : ErrorCategory → String
  | configuration => "configuration"
  | conflict => "conflict"
  | portMapping => "port-mapping"
  | runtime => "runtime"
  | commandExec => "command-exec"
  | other => "other"

end ErrorCategory

/-- Why a push fails. -/
inductive PushError where
  /-- The declarations cannot be pushed together. -/
  | misconfigured (cause : Misconfiguration)
  /-- A value is refused. -/
  | invalid (cause : InvalidValue)
  /-- The records of exposed URLs could not be had. -/
  | urlsUnavailable (component reason : String)
  /-- Several volumes carry the labels of one role. -/
  | duplicateVolumes (component role : String) (count : Nat)
  /-- Several containers carry the labels of one alias. -/
  | duplicateContainers (component aliasName : String) (count : Nat)
  /-- An exposed URL leads to a port that its container does not declare. -/
  | staleUrl (component : String) (containerPort : Port) (url : String)
  /-- The engine refused a call. -/
  | callRefused (operation component reason : String)
  /-- A call or a command outlasted its deadline. -/
  | callExpired (operation : String) (deadline : Duration)
  /-- A command could not be started. -/
  | commandRefused (id aliasName reason : String)
  /-- A command ended with a nonzero exit code. -/
  | commandFailed (id aliasName : String) (exitCode : Int32)
  /-- The file system refused. -/
  | fileSystem (reason : String)
  /-- A document does not have the required form. -/
  | malformed (reason : String)
  | internal (cause : InternalFault)
  deriving DecidableEq, Repr

namespace PushError

/-- The error in words. -/
def message : PushError → String
  | misconfigured cause => "configuration error: " ++ cause.message
  | invalid cause => "invalid input: " ++ cause.message
  | urlsUnavailable component reason =>
    "failed to load exposed urls for component '" ++ component ++ "': " ++ reason
  | duplicateVolumes component role count =>
    "found " ++ toString count ++ " " ++ role ++ " volumes for component '" ++ component ++
      "', expected at most one; remove the duplicates manually"
  | duplicateContainers component aliasName count =>
    "found " ++ toString count ++ " running containers for devfile component '" ++ aliasName ++
      "' of '" ++ component ++ "' and cannot push changes"
  | staleUrl component containerPort url =>
    "url '" ++ url ++ "' of component '" ++ component ++ "' uses port " ++
      toString containerPort.toNat ++
      " which is not present in the devfile; re-create the url with the new devfile port"
  | callRefused operation component reason =>
    "runtime call '" ++ operation ++ "' failed for component '" ++ component ++ "': " ++ reason
  | callExpired operation deadline =>
    "operation timed out after " ++ deadline.text ++ ": " ++ operation
  | commandRefused id aliasName reason =>
    "failed to execute command '" ++ id ++ "' in '" ++ aliasName ++ "': " ++ reason
  | commandFailed id aliasName exitCode =>
    "command '" ++ id ++ "' in '" ++ aliasName ++ "' exited with code " ++ toString exitCode.toInt
  | fileSystem reason => "I/O error: " ++ reason
  | malformed reason => "serialization error: " ++ reason
  | internal cause => "internal error: " ++ cause.message

/-- The category of an error. -/
def category : PushError → ErrorCategory
  | misconfigured _ | invalid _ | urlsUnavailable .. => .configuration
  | duplicateVolumes .. | duplicateContainers .. => .conflict
  | staleUrl .. => .portMapping
  | callRefused .. | callExpired .. => .runtime
  | commandRefused .. | commandFailed .. => .commandExec
  | fileSystem _ | malformed _ | internal _ => .other

/-- Whether duplicates have to be removed by hand before the next push. -/
def isConflict (e : PushError) : Bool := e.category = .conflict

end PushError

end DevfilePush
