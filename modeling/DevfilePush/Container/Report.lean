import DevfilePush.Container.Difference

/-!
# What reconciling did

For each declared container, which container now runs for it and whether that one is new.

## Main definitions

* `ContainerChange`: created, replaced for some differences, or kept.
* `ContainerReport`: the records in declaration order.
* `ContainerReport.allKept`: whether every container was left as it was.
-/

namespace DevfilePush

/-- What was done for one declared container. -/
inductive ContainerChange where
  /-- There was none; one was created. -/
  | created
  /-- The one there was differed and was replaced. -/
  | replaced (differences : List Difference)
  /-- The one there was agreed. -/
  | kept
  deriving DecidableEq, Repr

namespace ContainerChange

/-- Whether a container was created. -/
def isNew : ContainerChange → Bool
  | created => true
  | replaced _ => true
  | kept => false

/-- The outcome in a word. -/
def text : ContainerChange → String
  | created => "created"
  | replaced _ => "recreated"
  | kept => "unchanged"

end ContainerChange

/-- The container that now runs for a declared one. -/
structure ContainerRecord where
  aliasName : String
  id : String
  change : ContainerChange
  deriving DecidableEq, Repr

/-- The records of all declared containers. -/
structure ContainerReport where
  records : List ContainerRecord
  deriving DecidableEq, Repr

namespace ContainerReport

/-- Whether every container was left as it was. A component with one new container counts as new. -/
def allKept (r : ContainerReport) : Bool := r.records.all fun record => !record.change.isNew

/-- The aliases of new containers. -/
def newAliases (r : ContainerReport) : List String :=
  (r.records.filter (·.change.isNew)).map (·.aliasName)

/-- The record of an alias. -/
def get? (r : ContainerReport) (aliasName : String) : Option ContainerRecord :=
  r.records.find? (·.aliasName = aliasName)

end ContainerReport

end DevfilePush
