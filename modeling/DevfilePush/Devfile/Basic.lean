/-!
# What a devfile declares

A component is made of containers, each known by its alias, and has commands of three groups. The
shapes here are already read and typed; how they may be combined is checked elsewhere.

## Main definitions

* `Component`: one declared container with its environment, endpoints and volume mounts.
* `CommandGroup`, `Command`: a command and the part it plays in a push.
* `CommandSelection`: at most one command per group.
-/

namespace DevfilePush

/-- A port number. -/
abbrev Port := UInt16

/-- An environment variable of a container. -/
structure EnvVar where
  name : String
  value : String
  deriving DecidableEq, Repr, Inhabited

/-- A port that a container listens on. -/
structure Endpoint where
  name : String
  targetPort : Port
  deriving DecidableEq, Repr, Inhabited

/-- A declared volume and where the container sees it. -/
structure VolumeMount where
  name : String
  containerPath : String
  deriving DecidableEq, Repr, Inhabited

/-- One declared container. -/
structure Component where
  /-- The container's alias, by which commands and URLs name it. -/
  aliasName : String
  image : String
  /-- The entrypoint; empty for the image's own. -/
  command : List String
  args : List String
  env : List EnvVar
  endpoints : List Endpoint
  volumeMounts : List VolumeMount
  /-- Whether the project source is mounted. -/
  mountSources : Bool
  deriving DecidableEq, Repr, Inhabited

namespace Component

/-- A container of which only alias and image are declared. -/
def ofImage (aliasName image : String) : Component :=
  ⟨aliasName, image, [], [], [], [], [], false⟩

/-- Whether the environment declares a variable. -/
def declaresEnv (c : Component) (name : String) : Bool := c.env.any (·.name = name)

/-- Whether an endpoint targets a port. -/
def declaresPort (c : Component) (port : Port) : Bool := c.endpoints.any (·.targetPort = port)

@[simp] theorem declaresEnv_iff {c : Component} {name : String} :
    c.declaresEnv name = true ↔ name ∈ c.env.map (·.name) := by
  simp [declaresEnv]

@[simp] theorem declaresPort_iff {c : Component} {port : Port} :
    c.declaresPort port = true ↔ port ∈ c.endpoints.map (·.targetPort) := by
  simp [declaresPort]

end Component

/-- The part a command plays in a push. -/
inductive CommandGroup where
  /-- Runs when the component's containers are new. -/
  | init
  /-- Runs in every push. -/
  | build
  /-- Launches the application under the supervisor. -/
  | run
  deriving DecidableEq, Repr, Inhabited

namespace CommandGroup

/-- The groups in the order in which a push runs them. -/
def order : List CommandGroup := [.init, .build, .run]

@[simp] theorem mem_order (g : CommandGroup) : g ∈ order := by cases g <;> decide

/-- The group's name. -/
def name : CommandGroup → String
  | .init => "init"
  | .build => "build"
  | .run => "run"

end CommandGroup

/-- A command to run in one of the containers. -/
structure Command where
  id : String
  /-- Alias of the container it runs in. -/
  component : String
  commandLine : String
  workingDir : Option String
  group : CommandGroup
  isDefault : Bool
  /-- Whether a running application is restarted; by default it is. -/
  restart : Option Bool
  deriving DecidableEq, Repr, Inhabited

namespace Command

/-- Whether a push to an existing component restarts the application. -/
def restarts (c : Command) : Bool := c.restart.getD true

theorem restarts_iff {c : Command} : c.restarts = true ↔ c.restart ≠ some false := by
  unfold restarts
  cases c.restart <;> simp

/-- The working directory, if one is named and not empty. -/
def directory? (c : Command) : Option String := c.workingDir.filter (· ≠ "")

end Command

/-- At most one command per group. -/
structure CommandSelection where
  init : Option Command
  build : Option Command
  run : Option Command
  deriving DecidableEq, Repr, Inhabited

namespace CommandSelection

/-- The command of a group. -/
def get (s : CommandSelection) : CommandGroup → Option Command
  | .init => s.init
  | .build => s.build
  | .run => s.run

/-- How many groups have a command. -/
def size (s : CommandSelection) : Nat := CommandGroup.order.countP fun g => (s.get g).isSome

/-- Whether no group has a command. -/
def isEmpty (s : CommandSelection) : Bool := s.size == 0

/-- The commands with their groups, in the order in which a push runs them. -/
def commands (s : CommandSelection) : List (CommandGroup × Command) :=
  CommandGroup.order.filterMap fun g => (s.get g).map (g, ·)

theorem isEmpty_iff {s : CommandSelection} : s.isEmpty = true ↔ s.commands = [] := by
  simp [isEmpty, size, commands, List.countP_eq_zero]

end CommandSelection

end DevfilePush
