import DevfilePush.Config.Basic
import DevfilePush.Container.Definition
import DevfilePush.Json.Codec

/-!
# The JSON forms of the program's values

One instance of `JsonForm` for each type that is stored or exchanged. A field that may be left out
stands with its default.
-/

namespace DevfilePush

open Json (record)

instance : JsonForm EnvVar where
  toJson e := record [("name", toJson e.name), ("value", toJson e.value)]
  ofJson? j := do
    let f ← Fields.ofJson? ["name", "value"] j
    return { name := ← f.required "name", value := ← f.required "value" }

instance : JsonForm Endpoint where
  toJson e := record [("name", toJson e.name), ("targetPort", toJson e.targetPort)]
  ofJson? j := do
    let f ← Fields.ofJson? ["name", "targetPort"] j
    return { name := ← f.required "name", targetPort := ← f.required "targetPort" }

instance : JsonForm VolumeMount where
  toJson m := record [("name", toJson m.name), ("containerPath", toJson m.containerPath)]
  ofJson? j := do
    let f ← Fields.ofJson? ["name", "containerPath"] j
    return { name := ← f.required "name", containerPath := ← f.required "containerPath" }

instance : JsonForm Component where
  toJson c := record [("alias", toJson c.aliasName), ("image", toJson c.image),
    ("command", toJson c.command), ("args", toJson c.args), ("env", toJson c.env),
    ("endpoints", toJson c.endpoints), ("volumeMounts", toJson c.volumeMounts),
    ("mountSources", toJson c.mountSources)]
  ofJson? j := do
    let f ← Fields.ofJson? ["alias", "image", "command", "args", "env", "endpoints", "volumeMounts",
      "mountSources"] j
    return {
      aliasName := ← f.required "alias"
      image := ← f.required "image"
      command := ← f.orElse "command" []
      args := ← f.orElse "args" []
      env := ← f.orElse "env" []
      endpoints := ← f.orElse "endpoints" []
      volumeMounts := ← f.orElse "volumeMounts" []
      mountSources := ← f.orElse "mountSources" false }

/-- A group is written as its name; it is also read from an object that holds null under the name. -/
instance : JsonForm CommandGroup where
  toJson g := .text g.name
  ofJson?
    | .string (some s) | .object [(some s, .null)] => CommandGroup.order.find? (·.name = s)
    | _ => none

instance : JsonForm Command where
  toJson c := record [("id", toJson c.id), ("component", toJson c.component),
    ("commandLine", toJson c.commandLine), ("workingDir", toJson c.workingDir),
    ("group", toJson c.group), ("isDefault", toJson c.isDefault), ("restart", toJson c.restart)]
  ofJson? j := do
    let f ← Fields.ofJson? ["id", "component", "commandLine", "workingDir", "group", "isDefault",
      "restart"] j
    return {
      id := ← f.required "id"
      component := ← f.required "component"
      commandLine := ← f.required "commandLine"
      workingDir := ← f.orElse "workingDir" none
      group := ← f.required "group"
      isDefault := ← f.orElse "isDefault" false
      restart := ← f.orElse "restart" none }

/-- The restriction to one container is left out where there is none. -/
instance : JsonForm UrlRecord where
  toJson u := record ([("Name", toJson u.name), ("Port", toJson u.port),
    ("ExposedPort", toJson u.exposedPort)] ++
    (u.container.map fun c => ("Container", toJson c)).toList)
  ofJson? j := do
    let f ← Fields.ofJson? ["Name", "Port", "ExposedPort", "Container"] j
    return {
      name := ← f.required "Name"
      port := ← f.required "Port"
      exposedPort := ← f.orElse "ExposedPort" 0
      container := ← f.orElse "Container" none }

instance : JsonForm Supervisor where
  toJson s := record [("binaryPath", toJson s.binaryPath), ("confFile", toJson s.confFile),
    ("mountPath", toJson s.mountPath), ("program", toJson s.program)]
  ofJson? j := do
    let f ← Fields.ofJson? ["binaryPath", "confFile", "mountPath", "program"] j
    return {
      binaryPath := ← f.orElse "binaryPath" Supervisor.standard.binaryPath
      confFile := ← f.orElse "confFile" Supervisor.standard.confFile
      mountPath := ← f.orElse "mountPath" Supervisor.standard.mountPath
      program := ← f.orElse "program" Supervisor.standard.program }

instance : JsonForm Config where
  toJson c := record [("hostIp", toJson c.hostIp), ("callTimeoutSecs", toJson c.callTimeout),
    ("execTimeoutSecs", toJson c.execTimeout), ("showOutput", toJson c.showOutput),
    ("supervisor", toJson c.supervisor)]
  ofJson? j := do
    let f ← Fields.ofJson? ["hostIp", "callTimeoutSecs", "execTimeoutSecs", "showOutput",
      "supervisor"] j
    return {
      hostIp := ← f.orElse "hostIp" Config.standard.hostIp
      callTimeout := ← f.orElse "callTimeoutSecs" Config.standard.callTimeout
      execTimeout := ← f.orElse "execTimeoutSecs" Config.standard.execTimeout
      showOutput := ← f.orElse "showOutput" Config.standard.showOutput
      supervisor := ← f.orElse "supervisor" Config.standard.supervisor }

instance : JsonForm Volume where
  toJson v := record [("name", toJson v.name), ("labels", toJson v.labels)]
  ofJson? j := do
    let f ← Fields.ofJson? ["name", "labels"] j
    return { name := ← f.required "name", labels := ← f.orElse "labels" ∅ }

instance : JsonForm ListedContainer where
  toJson c := record [("id", toJson c.id), ("command", toJson c.command),
    ("labels", toJson c.labels)]
  ofJson? j := do
    let f ← Fields.ofJson? ["id", "command", "labels"] j
    return {
      id := ← f.required "id"
      command := ← f.required "command"
      labels := ← f.orElse "labels" ∅ }

instance : JsonForm Mount where
  toJson m := record [("source", toJson m.source), ("target", toJson m.target)]
  ofJson? j := do
    let f ← Fields.ofJson? ["source", "target"] j
    return { source := ← f.required "source", target := ← f.required "target" }

instance : JsonForm PortBinding where
  toJson b := record [("container_port", toJson b.containerPort), ("host_ip", toJson b.hostIp),
    ("host_port", toJson b.hostPort)]
  ofJson? j := do
    let f ← Fields.ofJson? ["container_port", "host_ip", "host_port"] j
    return {
      containerPort := ← f.required "container_port"
      hostIp := ← f.required "host_ip"
      hostPort := ← f.required "host_port" }

instance : JsonForm ContainerConfig where
  toJson c := record [("image", toJson c.image), ("command", toJson c.command),
    ("args", toJson c.args), ("env", toJson c.env), ("labels", toJson c.labels),
    ("exposed_ports", toJson c.exposedPorts)]
  ofJson? j := do
    let f ← Fields.ofJson? ["image", "command", "args", "env", "labels", "exposed_ports"] j
    return {
      image := ← f.required "image"
      command := ← f.orElse "command" []
      args := ← f.orElse "args" []
      env := ← f.orElse "env" []
      labels := ← f.orElse "labels" ∅
      exposedPorts := ← f.orElse "exposed_ports" [] }

instance : JsonForm HostConfig where
  toJson h := record [("port_bindings", toJson h.portBindings), ("mounts", toJson h.mounts)]
  ofJson? j := do
    let f ← Fields.ofJson? ["port_bindings", "mounts"] j
    return { portBindings := ← f.orElse "port_bindings" [], mounts := ← f.orElse "mounts" [] }

instance : JsonForm Definition where
  toJson d := record [("config", toJson d.config), ("host", toJson d.host)]
  ofJson? j := do
    let f ← Fields.ofJson? ["config", "host"] j
    return { config := ← f.required "config", host := ← f.required "host" }

end DevfilePush
