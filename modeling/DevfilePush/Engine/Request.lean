import DevfilePush.Container.Definition

/-!
# Requests to the engine

What a push may ask of a container engine, and what it may be told. A request is answered with a
reply, refused with a reason, or not answered before its deadline; whether a request that was not
answered took effect is not known to the one who asked.

## Main definitions

* `Request`: the calls, with what they carry.
* `Request.Reply`: what answers a call that succeeds.
* `Answer`: a reply, a refusal or silence.
-/

namespace DevfilePush

/-- A call to the engine. -/
inductive Request where
  /-- The volumes that carry all labels. -/
  | listVolumes (selector : Labels)
  /-- A new volume, named by the stem and random hexadecimal digits. -/
  | createVolume (stem : String) (labels : Labels)
  /-- Fetches an image. -/
  | pullImage (image : String)
  /-- A new container, running when the call returns. -/
  | createContainer (definition : Definition)
  /-- Removes a container, running or not. -/
  | removeContainer (id : String)
  /-- The containers that carry all labels. -/
  | listContainers (selector : Labels)
  /-- The definition a container was created from. -/
  | inspectContainer (id : String)
  /-- Runs a command in a container, with its output attached or not. -/
  | exec (id : String) (argv : List String) (attach : Bool)
  deriving DecidableEq

namespace Request

/-- What answers a request that succeeds; a command is answered with its exit code. -/
def Reply : Request → Type
  | listVolumes _ => List Volume
  | createVolume .. => Volume
  | pullImage _ => Unit
  | createContainer _ => String
  | removeContainer _ => Unit
  | listContainers _ => List ListedContainer
  | inspectContainer _ => Definition
  | exec .. => Int32

/-- The request's name in messages. -/
def operation : Request → String
  | listVolumes _ => "list_volumes_by_label"
  | createVolume .. => "create_volume"
  | pullImage _ => "pull_image"
  | createContainer _ => "create_and_start_container"
  | removeContainer _ => "remove_container"
  | listContainers _ => "list_containers_by_label"
  | inspectContainer _ => "inspect_container"
  | exec .. => "exec"

/-- Whether a request makes, fetches or removes something. -/
def alters : Request → Bool
  | createVolume .. | pullImage _ | createContainer _ | removeContainer _ => true
  | listVolumes _ | listContainers _ | inspectContainer _ | exec .. => false

end Request

/-- How a request ends for the one who asked. -/
inductive Answer (α : Type) where
  | reply (value : α)
  /-- The engine refused, for this reason. -/
  | refused (reason : String)
  /-- The deadline passed first. -/
  | expired

end DevfilePush
