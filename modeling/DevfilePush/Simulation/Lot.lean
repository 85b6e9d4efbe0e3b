import DevfilePush.Engine.Conduct
import DevfilePush.Simulation.Fate

/-!
# What falls to a call

What a push cannot foresee of an engine is what becomes of each call and what the things are called that
the engine makes. With both given beforehand for every call of a push, it depends on what the engine
holds and on nothing else how the push goes; only the order of a listing is still free.

## Main definitions

* `Lot`: what falls to a call.
* `Lot.Answers`, `Lot.leaves`: how a call of a lot is answered, and what it leaves.
* `Lot.conduct`: the engine that meets each call by some lot.
* `Script.Undergoes`: a run of a script with the lots of its calls given.
-/

namespace DevfilePush

/-- What falls to a call. -/
structure Lot where
  fate : Fate
  /-- The id of the container that the call makes, if it makes one. -/
  id : String
  /-- The name of the volume that the call makes, if it makes one. -/
  volume : String
  deriving DecidableEq, Repr

namespace Lot

-- The command line that the engine lists for a container goes by what the container runs.
variable (commandLine : ContainerConfig → String)

/-- The container that is made from a definition. -/
def container (lot : Lot) (d : Definition) : Running :=
  ⟨⟨lot.id, commandLine d.config, d.config.labels⟩, d⟩

/-- What the engine holds after a call that happens. -/
def effect (lot : Lot) (h : Holdings) : Request → Holdings
  | .createVolume _ labels => h.addVolume ⟨lot.volume, labels⟩
  | .createContainer d => h.addContainer (lot.container commandLine d)
  | .removeContainer id => h.removeContainer id
  | .listVolumes _ | .pullImage _ | .listContainers _ | .inspectContainer _ | .exec .. => h

/-- What the engine holds after a call, which may have happened. -/
def leaves (lot : Lot) (h : Holdings) (r : Request) : Holdings :=
  if lot.fate.happens then lot.effect commandLine h r else h

/-- What is replied to a call that is served, where commands exit with a code. A listing shows what
carries every label in any order. -/
def Replies (lot : Lot) (exitCode : Int32) (h : Holdings) : (r : Request) → r.Reply → Prop
  | .listVolumes selector, found => List.Perm found (h.volumesWith selector)
  | .createVolume _ labels, volume => volume = (⟨lot.volume, labels⟩ : Volume)
  | .createContainer _, id => id = lot.id
  | .listContainers selector, found => List.Perm found ((h.containersWith selector).map (·.live))
  | .inspectContainer id, d => ∃ c ∈ h.containers, c.live.id = id ∧ c.definition = d
  | .exec .., code => code = exitCode
  | .pullImage _, _ | .removeContainer _, _ => True

/-- How a call is answered. A call that is to be served is refused if there is no reply to it, which is
to say that it inspects what is not there. -/
def Answers (lot : Lot) (h : Holdings) (r : Request) : Answer r.Reply → Prop
  | .reply reply => ∃ exitCode, lot.fate = .served exitCode ∧ lot.Replies exitCode h r reply
  | .refused reason => (∃ happened, lot.fate = .refused reason happened) ∨
      ∃ exitCode, lot.fate = .served exitCode ∧ ∀ reply, ¬ lot.Replies exitCode h r reply
  | .expired => ∃ happened, lot.fate = .expired happened

/-- The engine that meets each call by some lot. -/
def conduct : Conduct := fun before r answer after =>
  ∃ lot : Lot, lot.Answers before r answer ∧ after = lot.leaves commandLine before r

end Lot

/-- A run of a script to whose calls these lots fall one after another; there may be lots left in the
end. -/
def Script.Undergoes {α : Type} (commandLine : ContainerConfig → String) :
    Script α → List Lot → Holdings → Except PushError α → Holdings → Prop
  | .done value, _, before, verdict, after => verdict = .ok value ∧ after = before
  | .fail error, _, before, verdict, after => verdict = .error error ∧ after = before
  | .log _ next, lots, before, verdict, after => next.Undergoes commandLine lots before verdict after
  | .call request _ next, lots, before, verdict, after =>
    ∃ lot rest answer, lots = lot :: rest ∧ lot.Answers before request answer ∧
      (next answer).Undergoes commandLine rest (lot.leaves commandLine before request) verdict after

end DevfilePush
