import DevfilePush.Engine.Holdings
import DevfilePush.Text.Digits

/-!
# An engine in memory

A container engine that keeps lists of volumes and containers and does at once what it is asked. A
listing gives exactly the resources that carry every label, in the order in which they were made;
names and ids are counted; a command ends with whatever exit code it is said to.

## Main definitions

* `MemoryEngine`: the engine's state.
* `MemoryEngine.perform`: what a request does and what answers it.
-/

namespace DevfilePush

/-- The state of an engine in memory. -/
structure MemoryEngine where
  volumes : List Volume
  containers : List Running
  /-- How many volumes the engine has made. -/
  volumeCount : Nat
  /-- How many containers the engine has made. -/
  containerCount : Nat
  deriving DecidableEq, Inhabited

namespace MemoryEngine

/-- An engine that holds nothing. -/
def empty : MemoryEngine := ⟨[], [], 0, 0⟩

/-- The command line of a container's first process, as far as its definition tells. -/
def commandLine (d : Definition) : String :=
  match d.config.command ++ d.config.args with
  | [] => "/docker-entrypoint.sh"
  | words => " ".intercalate words

/-- The volumes that carry all labels of a selector. -/
def volumesWith (e : MemoryEngine) (selector : Labels) : List Volume :=
  e.volumes.filter fun v => selector.selects v.labels

/-- The containers that carry all labels of a selector. -/
def containersWith (e : MemoryEngine) (selector : Labels) : List ListedContainer :=
  (e.containers.map (·.live)).filter fun c => selector.selects c.labels

/-- The next volume that the engine makes from a stem and labels. -/
def nextVolume (e : MemoryEngine) (stem : String) (labels : Labels) : Volume :=
  ⟨stem ++ Text.padded Conventions.volumeSuffixLength (e.volumeCount + 1), labels⟩

/-- The next container that the engine makes from a definition. -/
def nextContainer (e : MemoryEngine) (d : Definition) : Running :=
  ⟨⟨"container-" ++ toString (e.containerCount + 1), commandLine d, d.config.labels⟩, d⟩

/-- Without the containers of an id. -/
def removeContainer (e : MemoryEngine) (id : String) : MemoryEngine :=
  { e with containers := e.containers.filter (·.live.id ≠ id) }

/-- The definition of the first container of an id. -/
def inspect (e : MemoryEngine) (id : String) : Except String Definition :=
  match e.containers.find? (·.live.id = id) with
  | some running => .ok running.definition
  | none => .error ("no such container: " ++ id)

/-- Does what a request asks for; `exitCode` is what a command ends with. -/
def perform (e : MemoryEngine) (exitCode : Int32) :
    (r : Request) → Except String r.Reply × MemoryEngine
  | .listVolumes selector => (.ok (e.volumesWith selector), e)
  | .createVolume stem labels =>
    let volume := e.nextVolume stem labels
    (.ok volume, { e with volumes := e.volumes ++ [volume], volumeCount := e.volumeCount + 1 })
  | .pullImage _ => (.ok (), e)
  | .createContainer d =>
    let running := e.nextContainer d
    (.ok running.live.id,
      { e with containers := e.containers ++ [running], containerCount := e.containerCount + 1 })
  | .removeContainer id => (.ok (), e.removeContainer id)
  | .listContainers selector => (.ok (e.containersWith selector), e)
  | .inspectContainer id => (e.inspect id, e)
  | .exec .. => (.ok exitCode, e)

end MemoryEngine

end DevfilePush
