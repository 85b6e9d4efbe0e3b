import DevfilePush.Config.Basic
import DevfilePush.Container.Definition
import DevfilePush.Volume.Role

/-!
# Building a definition

The definition a container has to be running, from what is declared of it and from the volumes, ports
and run command of a push. What is declared is kept as it is; variables are added only under names
that are not declared, and the supervisor becomes the entrypoint only where none is declared.

## Main definitions

* `Surroundings`: what all containers of a push share.
* `Definition.build`: the definition of one container.
-/

namespace DevfilePush

/-- What all containers of a push share. -/
structure Surroundings where
  component : String
  volumes : VolumeNames
  runCommand : Option Command
  supervisor : Supervisor

namespace Surroundings

/-- The run command, if it runs in this container. -/
def runFor (inputs : Surroundings) (c : Component) : Option Command :=
  inputs.runCommand.filter (·.component = c.aliasName)

/-- The mounts of the declared volumes. -/
def storageMounts (inputs : Surroundings) (c : Component) : Except InternalFault (List Mount) :=
  c.volumeMounts.mapM fun m =>
    match inputs.volumes.storage.get? m.name with
    | some source => .ok ⟨source, m.containerPath⟩
    | none => .error (.unresolvedVolume m.name c.aliasName)

/-- The mount of the supervisor's volume in the container of the run command. -/
def supervisorMounts (inputs : Surroundings) (c : Component) : Except InternalFault (List Mount) :=
  match inputs.runFor c with
  | none => .ok []
  | some _ =>
    match inputs.volumes.supervisor with
    | some source => .ok [⟨source, inputs.supervisor.mountPath⟩]
    | none => .error (.unresolvedSupervisor c.aliasName)

/-- The mount of the project source. -/
def sourceMounts (inputs : Surroundings) (c : Component) : List Mount :=
  if c.mountSources then [⟨inputs.volumes.projectSource, Conventions.projectsPath⟩] else []

/-- The entrypoint and its arguments: the declared ones, or else the supervisor in the container of
the run command. -/
def entrypoint (inputs : Surroundings) (c : Component) : List String × List String :=
  if (inputs.runFor c).isSome ∧ c.command = [] ∧ c.args = [] then
    ([inputs.supervisor.binaryPath], ["-c", inputs.supervisor.confFile])
  else (c.command, c.args)

/-- The variables that tell the supervisor what to run. -/
def runEnv (inputs : Surroundings) (c : Component) : List (String × String) :=
  match inputs.runFor c with
  | none => []
  | some run =>
    (Conventions.runVariable, run.commandLine) ::
      (run.directory?.map fun dir => (Conventions.runDirectoryVariable, dir)).toList

/-- The variable that points at the project source. -/
def sourceEnv (c : Component) : List (String × String) :=
  if c.mountSources then [(Conventions.projectsVariable, Conventions.projectsPath)] else []

/-- The declared variables, then those added under undeclared names. -/
def env (inputs : Surroundings) (c : Component) : List (String × String) :=
  c.env.map (fun e => (e.name, e.value)) ++
    (inputs.runEnv c ++ sourceEnv c).filter fun e => !c.declaresEnv e.1

/-- The labels that select the container, and the name of the URL at each bound port. -/
def labels (inputs : Surroundings) (c : Component) (ports : PortMap) : Labels :=
  ports.names.foldl (fun labels e => labels.insert (toString e.1.toNat) e.2)
    (Labels.ofContainer inputs.component c.aliasName)

end Surroundings

/-- The definition that the container of `c` has to be running. -/
def Definition.build (inputs : Surroundings) (c : Component) (ports : PortMap) :
    Except InternalFault Definition := do
  let storage ← inputs.storageMounts c
  let supervisor ← inputs.supervisorMounts c
  return {
    config := {
      image := c.image
      command := (inputs.entrypoint c).1
      args := (inputs.entrypoint c).2
      env := inputs.env c
      labels := inputs.labels c ports
      exposedPorts := c.endpoints.map (·.targetPort) }
    host := {
      portBindings := ports.bindings
      mounts := storage ++ supervisor ++ inputs.sourceMounts c } }

end DevfilePush
