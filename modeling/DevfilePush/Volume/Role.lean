import DevfilePush.Conventions
import DevfilePush.Labels

/-!
# Volume roles

What a volume is for. A role has labels of its own within a component, and a stem for the names of
its volumes.

## Main definitions

* `VolumeRole`, `VolumeRole.labels`, `VolumeRole.stem`
* `VolumeNames`: the volume names that a push mounts.
-/

namespace DevfilePush

/-- What a volume is for. -/
inductive VolumeRole where
  /-- The component's project source. -/
  | projectSource
  /-- The supervisor's program and configuration. -/
  | supervisor
  /-- A declared volume, by its declared name. -/
  | storage (name : String)
  deriving DecidableEq, Repr

namespace VolumeRole

/-- The label that tells the role apart from a component's other roles. -/
def mark : VolumeRole → String × String
  | projectSource => (Conventions.typeLabel, Conventions.projectsType)
  | supervisor => (Conventions.typeLabel, Conventions.supervisorType)
  | storage name => (Conventions.storageNameLabel, name)

/-- The labels of the role's volume in a component. -/
def labels (role : VolumeRole) (component : String) : Labels :=
  ((∅ : Labels).insert Conventions.componentLabel component).insert role.mark.1 role.mark.2

/-- The role's part of a volume name. -/
def base : VolumeRole → String
  | projectSource => Conventions.projectSourceStem
  | supervisor => Conventions.supervisorStem
  | storage name => name

/-- The role in words. -/
def text : VolumeRole → String
  | projectSource => "project source"
  | supervisor => "supervisor"
  | storage name => "storage '" ++ name ++ "'"

end VolumeRole

/-- A volume name up to its random suffix. -/
def volumeStem (base component : String) : String := base ++ "-" ++ component ++ "-"

/-- The name of a new role's volume in a component, up to its random suffix. -/
def VolumeRole.stem (role : VolumeRole) (component : String) : String :=
  volumeStem role.base component

/-- The names of the volumes that a push mounts. -/
structure VolumeNames where
  projectSource : String
  /-- The supervisor's volume, if a run command needs it. -/
  supervisor : Option String
  /-- The volume of each declared name. -/
  storage : SortedMap String String
  deriving DecidableEq, Inhabited

end DevfilePush
