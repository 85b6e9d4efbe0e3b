import DevfilePush.Context
import DevfilePush.Engine.Script
import DevfilePush.Lookup

/-!
# Resolving volumes

Each role of a push is given one volume: the one that carries the role's labels, or a new one where
none does. Several are an error, which no push mends by itself.

## Main definitions

* `lookupVolume`: the volumes that carry a role's labels, classified.
* `resolveVolume`: the volume of a role, created if there is none.
* `resolveVolumes`: the volumes of all roles that a push needs.
-/

namespace DevfilePush

/-- A volume that serves a role. -/
structure ServingVolume where
  name : String
  /-- Whether it was created for this. -/
  created : Bool
  deriving DecidableEq, Repr

/-- Looks the volume of a role up, creating nothing. -/
def lookupVolume (ctx : Context) (role : VolumeRole) : Script (Lookup Volume) := do
  let found ← Script.ask ctx.component ctx.config.callDeadline
    (.listVolumes (role.labels ctx.component))
  return .ofMatches found

/-- The volume of a role, created if there is none. -/
def resolveVolume (ctx : Context) (role : VolumeRole) : Script ServingVolume := do
  match ← lookupVolume ctx role with
  | .found volume =>
    Script.note (.reusedVolume ctx.component role volume.name)
    return ⟨volume.name, false⟩
  | .conflict volumes => .fail (.duplicateVolumes ctx.component role.text volumes.length)
  | .missing =>
    let volume ← Script.ask ctx.component ctx.config.callDeadline
      (.createVolume (role.stem ctx.component) (role.labels ctx.component))
    Script.note (.createdVolume ctx.component role volume.name)
    return ⟨volume.name, true⟩

/-- The declared volume names, each at its first occurrence. -/
def storageNames (components : List Component) : List String :=
  (components.flatMap (·.volumeMounts)).foldl
    (fun names mount => if mount.name ∈ names then names else names ++ [mount.name]) []

/-- The volumes of declared names, added to those resolved before. -/
def resolveStorage (ctx : Context) :
    SortedMap String String → List String → Script (SortedMap String String)
  | resolved, [] => return resolved
  | resolved, name :: rest => do
    let handle ← resolveVolume ctx (.storage name)
    resolveStorage ctx (resolved.insert name handle.name) rest

/-- The supervisor's volume, if it is needed. -/
def resolveSupervisor (ctx : Context) : Bool → Script (Option String)
  | false => return none
  | true => do
    let handle ← resolveVolume ctx .supervisor
    return some handle.name

/-- The volumes of all roles that a push needs: the project source, the supervisor if a command is to
be run, then each declared name once. -/
def resolveVolumes (ctx : Context) (components : List Component) (needsSupervisor : Bool) :
    Script VolumeNames := do
  let projectSource ← resolveVolume ctx .projectSource
  let supervisor ← resolveSupervisor ctx needsSupervisor
  let storage ← resolveStorage ctx ∅ (storageNames components)
  return ⟨projectSource.name, supervisor, storage⟩

end DevfilePush
