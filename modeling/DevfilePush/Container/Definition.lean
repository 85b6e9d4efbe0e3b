import DevfilePush.Labels
import DevfilePush.Url.PortMap
import DevfilePush.Conventions

/-!
# Containers and volumes of the engine

What a container is created from and what the engine reports of it afterwards.

## Main definitions

* `Definition`: all that is needed to create a container.
* `ListedContainer`, `Volume`: entries of the engine's listings.
* `Labels.ofContainer`: the labels that select a component's container by its alias.
-/

namespace DevfilePush

/-- A volume and the path at which a container sees it. -/
structure Mount where
  source : String
  target : String
  deriving DecidableEq, Repr, Inhabited

/-- What a container runs. -/
structure ContainerConfig where
  image : String
  /-- The entrypoint; empty for the image's own. -/
  command : List String
  args : List String
  env : List (String × String)
  labels : Labels
  exposedPorts : List Port
  deriving DecidableEq, Inhabited

/-- What a container is given of its host. -/
structure HostConfig where
  portBindings : List PortBinding
  mounts : List Mount
  deriving DecidableEq, Inhabited

/-- All that is needed to create a container, and all that inspecting it returns. -/
structure Definition where
  config : ContainerConfig
  host : HostConfig
  deriving DecidableEq, Inhabited

/-- A volume of the engine. -/
structure Volume where
  name : String
  labels : Labels
  deriving DecidableEq, Inhabited

/-- A container as the engine lists it. -/
structure ListedContainer where
  id : String
  /-- The command line of its first process, in words separated by spaces. -/
  command : String
  labels : Labels
  deriving DecidableEq, Inhabited

/-- The alias a container is labelled with. -/
def ListedContainer.alias? (c : ListedContainer) : Option String :=
  c.labels.get? Conventions.aliasLabel

/-- The labels of a component's container of the given alias. -/
def Labels.ofContainer (component aliasName : String) : Labels :=
  ((∅ : Labels).insert Conventions.componentLabel component).insert Conventions.aliasLabel aliasName

/-- The label that all containers of a component share. -/
def Labels.ofComponent (component : String) : Labels :=
  (∅ : Labels).insert Conventions.componentLabel component

end DevfilePush
