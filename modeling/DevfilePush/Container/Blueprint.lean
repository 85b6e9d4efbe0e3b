import DevfilePush.Container.Build
import DevfilePush.Devfile.Check
import DevfilePush.Volume.Resolve

/-!
# Containers as they are declared

Makes the engine run each declared container as it is declared: a missing container is created, one
that agrees with its desired definition is kept, one that differs is replaced, and several for one
alias are an error. Containers are taken in declaration order; what was done before an error stays.

## Main definitions

* `Blueprint`: the declared containers with what a push brings to them.
* `Blueprint.desired`: the definition that a container has to be running.
* `Blueprint.realizeOne`, `Blueprint.realize`: one container, and all of them.
-/

namespace DevfilePush

/-- The declared containers with what a push brings to them. -/
structure Blueprint where
  components : List Component
  urls : List UrlRecord
  volumes : VolumeNames
  runCommand : Option Command

variable (ctx : Context)

/-- Fetches the image and starts a container; an image is always fetched, since its name may have
moved. -/
def startContainer (c : Component) (desired : Definition) : Script String := do
  Script.step ("Pulling image " ++ c.image)
    (Script.ask ctx.component ctx.config.callDeadline (.pullImage c.image))
  let id : String ← Script.step ("Starting container for " ++ c.image)
    (Script.ask ctx.component ctx.config.callDeadline (.createContainer desired))
  Script.note (.startedContainer ctx.component c.aliasName id)
  return id

/-- Keeps the one container of an alias, or replaces it where it differs. -/
def keepOrReplace (c : Component) (desired : Definition) (live : ListedContainer) :
    Script ContainerRecord := do
  let actual ← Script.ask ctx.component ctx.config.callDeadline (.inspectContainer live.id)
  let differences := desired.differences actual
  if differences.isEmpty then
    Script.note (.upToDate ctx.component c.aliasName)
    return ⟨c.aliasName, live.id, .kept⟩
  else
    Script.note (.needsUpdate ctx.component c.aliasName differences)
    let id ← Script.step ("Updating the component " ++ c.aliasName) do
      let _ ← Script.ask ctx.component ctx.config.callDeadline (.removeContainer live.id)
      startContainer ctx c desired
    return ⟨c.aliasName, id, .replaced differences⟩

namespace Blueprint

variable (b : Blueprint)

/-- What all containers are built from. -/
def surroundings : Surroundings where
  component := ctx.component
  volumes := b.volumes
  runCommand := b.runCommand
  supervisor := ctx.config.supervisor

/-- The definition that a container has to be running. -/
def desired (c : Component) : Except PushError Definition := do
  let ports ← PortMap.ofUrls ctx.component c b.urls ctx.config.hostIp
  (Definition.build (b.surroundings ctx) c ports).mapError .internal

/-- What is logged of a container's ports: every URL bound before the first stale one. -/
def portEvents (c : Component) : List Event :=
  (PortMap.bound c b.urls).map (.boundPort ctx.component c.aliasName ctx.config.hostIp)

/-- Makes the engine run one declared container. -/
def realizeOne (c : Component) : Script ContainerRecord := do
  Script.notes (b.portEvents ctx c)
  let desired ← Script.ofExcept (b.desired ctx c)
  let found ← Script.ask ctx.component ctx.config.callDeadline
    (.listContainers (Labels.ofContainer ctx.component c.aliasName))
  match Lookup.ofMatches found with
  | .missing =>
    let id ← startContainer ctx c desired
    return ⟨c.aliasName, id, .created⟩
  | .found live => keepOrReplace ctx c desired live
  | .conflict lives => .fail (.duplicateContainers ctx.component c.aliasName lives.length)

/-- Makes the engine run declared containers in order. -/
def realizeEach : List Component → Script (List ContainerRecord)
  | [] => return []
  | c :: rest => do
    let record ← b.realizeOne ctx c
    Script.note (.reconciled ctx.component record)
    let records ← realizeEach rest
    return record :: records

/-- Makes the engine run all declared containers, if they can be accepted. -/
def realize : Script ContainerReport := do
  Script.ofExcept (checkComponents b.components)
  let records ← b.realizeEach ctx b.components
  return ⟨records⟩

end Blueprint

end DevfilePush
