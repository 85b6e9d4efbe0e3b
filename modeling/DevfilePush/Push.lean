import DevfilePush.Command.Execution
import DevfilePush.Container.Blueprint

/-!
# Pushing a component

A push checks what it is asked for, then, while it alone holds the component's lock, loads the exposed
URLs, resolves volumes, reconciles containers and runs the commands.

## Main definitions

* `Push`, `Push.check`: what is pushed, and the checks made before anything is done.
* `Push.reconciliation`, `Push.execution`: its volumes and containers, and its commands.
* `Push.session`: what a push does while it holds the lock.
* `Push.script`: a push that nothing else interferes with.
* `PushReport`: what a push that succeeds tells.
-/

namespace DevfilePush

/-- What loading the exposed URLs of a component gives, with what it logs. -/
structure UrlListing where
  events : List Event
  urls : Except PushError (List UrlRecord)

/-- What a push that succeeds tells. -/
structure PushReport where
  containers : ContainerReport
  commands : CommandReport
  deriving DecidableEq, Repr

/-- What is pushed. -/
structure Push where
  /-- The component's name. -/
  component : String
  /-- The directory of the component's files. -/
  directory : String
  components : List Component
  commands : CommandSelection
  deriving DecidableEq, Repr, Inhabited

namespace Push

/-- The checks made before anything is done: the containers, then that there is a command, then that
every command names a declared container. -/
def check (p : Push) : Except PushError Unit := do
  checkComponents p.components
  if p.commands.isEmpty then .error (.misconfigured .noCommands)
  else (p.commands.checkTargets p.components).mapError .misconfigured

/-- What stays the same throughout a push. -/
def context (p : Push) (c : ValidConfig) : Context where
  component := p.component
  directory := p.directory
  config := c.config

/-- The declared containers with the URLs and volumes that a push has found. -/
def blueprint (p : Push) (urls : List UrlRecord) (volumes : VolumeNames) : Blueprint where
  components := p.components
  urls
  volumes
  runCommand := p.commands.run

/-- The first part of a push: the URLs are loaded, the volumes resolved and the containers reconciled. -/
def reconciliation (p : Push) (c : ValidConfig) (listing : UrlListing) : Script ContainerReport := do
  let ctx := p.context c
  Script.note (.pushing ctx.component)
  Script.notes listing.events
  let urls ← Script.ofExcept (listing.urls.mapError fun e => .urlsUnavailable ctx.component e.message)
  let volumes ← resolveVolumes ctx p.components p.commands.run.isSome
  (p.blueprint urls volumes).realize ctx

/-- The second part of a push: the commands are run in the containers that are there now. -/
def execution (p : Push) (c : ValidConfig) (containers : ContainerReport) : Script PushReport := do
  let ctx := p.context c
  let live ← Script.ask ctx.component ctx.config.callDeadline
    (.listContainers (Labels.ofComponent ctx.component))
  let commands ← CommandSelection.runAll ctx p.commands containers.allKept live
  Script.note (.pushed ctx.component containers.newAliases.length)
  return ⟨containers, commands⟩

/-- What a push does while it holds the component's lock. -/
def session (p : Push) (c : ValidConfig) (listing : UrlListing) : Script PushReport := do
  let containers ← p.reconciliation c listing
  p.execution c containers

/-- A push that nothing else interferes with: the checks, then the session. -/
def script (p : Push) (c : ValidConfig) (listing : UrlListing) : Script PushReport := do
  Script.ofExcept p.check
  p.session c listing

end Push

end DevfilePush
