import DevfilePush.Container.Report
import DevfilePush.Text.Quoted
import DevfilePush.Volume.Role

/-!
# Log events

What a push tells its log. An event is what happened; its level, its message and its named fields are
functions of it. Longer steps are announced by an event when they start and closed by exactly one of
two events.

## Main definitions

* `Event`
* `Event.level`, `Event.message`, `Event.fields`
-/

namespace DevfilePush

/-- How much an event matters. -/
inductive Level where
  | debug
  | info
  | warn
  deriving DecidableEq, Repr

/-- The level's name. -/
def Level.name : Level → String
  | debug => "DEBUG"
  | info => "INFO"
  | warn => "WARN"

/-- Something that happened during a push. -/
inductive Event where
  | pushing (component : String)
  | pushed (component : String) (changed : Nat)
  /-- A step began. -/
  | started (step : String)
  /-- A step ended well. -/
  | finished (step : String)
  /-- A step was given up. -/
  | failed (step : String)
  | noEnvFile (path : String)
  | reusedVolume (component : String) (role : VolumeRole) (volume : String)
  | createdVolume (component : String) (role : VolumeRole) (volume : String)
  | boundPort (component aliasName : String) (hostIp : String) (url : UrlRecord)
  | upToDate (component aliasName : String)
  | needsUpdate (component aliasName : String) (differences : List Difference)
  | startedContainer (component aliasName id : String)
  | reconciled (component : String) (record : ContainerRecord)
  | skippedCommand (component : String) (group : CommandGroup) (id : String)
  | executing (component : String) (group : CommandGroup) (command : Command)
  | supervisorRuns (component aliasName : String)
  | notRestarting (id : String)
  | exec (container : String) (argv : List String)
  deriving DecidableEq

namespace Event

/-- The event that closes a step. -/
def closing (step : String) (succeeded : Bool) : Event :=
  if succeeded then finished step else failed step

/-- The event's level. -/
def level : Event → Level
  | pushing _ | pushed .. | started _ | finished _ => .info
  | failed _ => .warn
  | noEnvFile _ | reusedVolume .. => .debug
  | createdVolume .. => .info
  | boundPort .. | upToDate .. | needsUpdate .. => .debug
  | startedContainer .. | reconciled .. => .info
  | skippedCommand .. => .debug
  | executing .. => .info
  | supervisorRuns .. | notRestarting _ | exec .. => .debug

/-- The event in words. -/
def message : Event → String
  | pushing component => "Pushing component " ++ component
  | pushed component _ => "Pushed component " ++ component
  | started step => step
  | finished step => "✓ " ++ step
  | failed step => "✗ " ++ step
  | noEnvFile path => "No env file at " ++ path ++ ", assuming no URLs"
  | reusedVolume _ role _ => "Reusing " ++ role.text ++ " volume"
  | createdVolume _ role _ => "Created " ++ role.text ++ " volume"
  | boundPort _ _ hostIp url =>
    "Bound " ++ hostIp ++ ":" ++ toString url.exposedPort.toNat ++ " to container port " ++
      toString url.port.toNat
  | upToDate .. => "Container is up to date"
  | needsUpdate .. => "Container needs updating"
  | startedContainer .. => "Started container"
  | reconciled .. => "Reconciled container"
  | skippedCommand _ group _ => "Component exists, skipping " ++ group.name ++ " command"
  | executing _ group _ => "Executing " ++ group.name ++ " command"
  | supervisorRuns .. => "Supervisor is already the entrypoint"
  | notRestarting _ => "restart: false, not restarting run command"
  | exec .. => "exec"

/-- The event's named fields. -/
def fields : Event → List (String × String)
  | pushing _ | started _ | finished _ | failed _ | noEnvFile _ => []
  | pushed _ changed => [("changed", toString changed)]
  | reusedVolume component _ volume | createdVolume component _ volume =>
    [("component", component), ("volume", volume)]
  | boundPort component aliasName _ url =>
    [("component", component), ("alias", aliasName), ("url", url.name)]
  | upToDate component aliasName | supervisorRuns component aliasName =>
    [("component", component), ("alias", aliasName)]
  | needsUpdate component aliasName differences =>
    [("component", component), ("alias", aliasName),
      ("changed", ", ".intercalate (differences.map (·.text)))]
  | startedContainer component aliasName id =>
    [("component", component), ("alias", aliasName), ("container", id)]
  | reconciled component record =>
    [("component", component), ("alias", record.aliasName), ("container", record.id),
      ("outcome", record.change.text)]
  | skippedCommand component _ id => [("component", component), ("command", id)]
  | executing component _ command =>
    [("component", component), ("alias", command.component), ("command", command.id)]
  | notRestarting id => [("command", id)]
  | exec container argv => [("container", container), ("argv", Text.quotedList argv)]

end Event

end DevfilePush
