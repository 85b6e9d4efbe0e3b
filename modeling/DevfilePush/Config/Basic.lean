import DevfilePush.Config.Address
import DevfilePush.Conventions
import DevfilePush.PushError

/-!
# Configuration

How a push talks to the engine and where the supervisor lives. A configuration may only be used when
its host address is a loopback address, both deadlines are positive and the supervisor can be named.

## Main definitions

* `Supervisor`: paths of the supervisor and the program that it runs.
* `Config`, `Config.standard`: the configuration of a push and its defaults.
* `Config.check`: the first reason for which a configuration is refused.
-/

namespace DevfilePush

/-- Where the supervisor lives in a container and what it runs. -/
structure Supervisor where
  binaryPath : String
  confFile : String
  /-- Where the supervisor's volume is mounted. -/
  mountPath : String
  /-- The supervised program that wraps the run command. -/
  program : String
  deriving DecidableEq, Repr

/-- The supervisor's usual place. -/
def Supervisor.standard : Supervisor where
  binaryPath := Conventions.supervisorBinary
  confFile := Conventions.supervisorConf
  mountPath := Conventions.supervisorMount
  program := Conventions.runProgram

instance : Inhabited Supervisor := ⟨.standard⟩

/-- The configuration of a push. -/
structure Config where
  /-- The host address that exposed ports are bound to. -/
  hostIp : String
  /-- Deadline of an engine call, in seconds. -/
  callTimeout : UInt64
  /-- Deadline of a command in a container, in seconds. -/
  execTimeout : UInt64
  /-- Whether the output of commands is attached. -/
  showOutput : Bool
  supervisor : Supervisor
  deriving DecidableEq, Repr

namespace Config

/-- The configuration used where nothing else is said. -/
def standard : Config where
  hostIp := Conventions.localhost
  callTimeout := Conventions.callTimeoutSeconds
  execTimeout := Conventions.execTimeoutSeconds
  showOutput := false
  supervisor := .standard

instance : Inhabited Config := ⟨standard⟩

/-- The deadline of an engine call. -/
def callDeadline (c : Config) : Duration := .ofSeconds c.callTimeout.toNat

/-- The deadline of a command. -/
def execDeadline (c : Config) : Duration := .ofSeconds c.execTimeout.toNat

/-- Whether the host address is a loopback address. -/
def isLocal (c : Config) : Bool := (Address.ofText? c.hostIp).any (·.isLoopback)

/-- Checks the host address, the deadlines and the supervisor's names, in this order. -/
def check (c : Config) : Except InvalidValue Unit :=
  if !c.isLocal then .error (.hostIp c.hostIp)
  else if c.callTimeout = 0 ∨ c.execTimeout = 0 then .error .zeroTimeout
  else if c.supervisor.binaryPath = "" ∨ c.supervisor.program = "" then .error .emptySupervisor
  else .ok ()

end Config

/-- A configuration that pushes may use. -/
structure ValidConfig where
  config : Config
  /-- The configuration was accepted. -/
  accepted : config.check = .ok ()

/-- The configuration used where nothing else is said, which is accepted. -/
def ValidConfig.standard : ValidConfig := ⟨.standard, by rfl⟩

instance : Inhabited ValidConfig := ⟨.standard⟩

/-- Accepts a configuration, or says why not. -/
def Config.accept (config : Config) : Except InvalidValue ValidConfig :=
  match h : config.check with
  | .ok () => .ok ⟨config, h⟩
  | .error cause => .error cause

end DevfilePush
