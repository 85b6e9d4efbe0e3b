import DevfilePush.Json.Forms
import DevfilePush.Proofs.Json.Document

/-!
# The documents of the program's values

For each type that is stored or exchanged, the documents of its values, by the fields that it has, and
that a value is read from all of them. A field of the configuration may be left out where it is as in the
standard one.

## Main statements

* `forms_decode`: what is written of a value reads back as this value, and so does every other document
  of it.
-/

namespace DevfilePush

/-- A group is its name. -/
instance : HasDocuments CommandGroup := ⟨fun g j => j = .text g.name⟩

instance : Faithful CommandGroup where
  written _ := rfl
  read := by
    rintro g _ rfl
    cases g <;> decide

instance : HasDocuments EnvVar :=
  ⟨fun e => RecordDocument [.required "name" e.name, .required "value" e.value]⟩

instance : Faithful EnvVar where
  written _ := Members.document <| .required <| .required .nil
  read h := by
    refine RecordDocument.read h rfl (by decide) fun f hstands => ?_
    obtain ⟨hname, hvalue⟩ := hstands
    simp [Fields.required_eq hname, Fields.required_eq hvalue]

instance : HasDocuments Endpoint :=
  ⟨fun e => RecordDocument [.required "name" e.name, .required "targetPort" e.targetPort]⟩

instance : Faithful Endpoint where
  written _ := Members.document <| .required <| .required .nil
  read h := by
    refine RecordDocument.read h rfl (by decide) fun f hstands => ?_
    obtain ⟨hname, htargetPort⟩ := hstands
    simp [Fields.required_eq hname, Fields.required_eq htargetPort]

instance : HasDocuments VolumeMount :=
  ⟨fun m => RecordDocument [.required "name" m.name, .required "containerPath" m.containerPath]⟩

instance : Faithful VolumeMount where
  written _ := Members.document <| .required <| .required .nil
  read h := by
    refine RecordDocument.read h rfl (by decide) fun f hstands => ?_
    obtain ⟨hname, hcontainerPath⟩ := hstands
    simp [Fields.required_eq hname, Fields.required_eq hcontainerPath]

instance : HasDocuments Component :=
  ⟨fun c => RecordDocument [
    .required "alias" c.aliasName, .required "image" c.image, .defaulted "command" c.command [],
    .defaulted "args" c.args [], .defaulted "env" c.env [], .defaulted "endpoints" c.endpoints [],
    .defaulted "volumeMounts" c.volumeMounts [], .defaulted "mountSources" c.mountSources false]⟩

instance : Faithful Component where
  written _ := Members.document <|
    .required <| .required <| .defaulted <| .defaulted <| .defaulted <| .defaulted <| .defaulted <|
      .defaulted .nil
  read h := by
    refine RecordDocument.read h rfl (by decide) fun f hstands => ?_
    obtain ⟨haliasName, himage, hcommand, hargs, henv, hendpoints, hvolumeMounts,
      hmountSources⟩ := hstands
    simp [Fields.required_eq haliasName, Fields.required_eq himage, Fields.orElse_eq hcommand,
      Fields.orElse_eq hargs, Fields.orElse_eq henv, Fields.orElse_eq hendpoints,
      Fields.orElse_eq hvolumeMounts, Fields.orElse_eq hmountSources]

instance : HasDocuments Command :=
  ⟨fun c => RecordDocument [
    .required "id" c.id, .required "component" c.component, .required "commandLine" c.commandLine,
    .defaulted "workingDir" c.workingDir none, .required "group" c.group,
    .defaulted "isDefault" c.isDefault false, .defaulted "restart" c.restart none]⟩

instance : Faithful Command where
  written _ := Members.document <|
    .required <| .required <| .required <| .defaulted <| .required <| .defaulted <| .defaulted .nil
  read h := by
    refine RecordDocument.read h rfl (by decide) fun f hstands => ?_
    obtain ⟨hid, hcomponent, hcommandLine, hworkingDir, hgroup, hisDefault, hrestart⟩ := hstands
    simp [Fields.required_eq hid, Fields.required_eq hcomponent, Fields.required_eq hcommandLine,
      Fields.orElse_eq hworkingDir, Fields.required_eq hgroup, Fields.orElse_eq hisDefault,
      Fields.orElse_eq hrestart]

instance : HasDocuments UrlRecord :=
  ⟨fun u => RecordDocument [
    .required "Name" u.name, .required "Port" u.port, .defaulted "ExposedPort" u.exposedPort 0,
    .defaulted "Container" u.container none]⟩

instance : Faithful UrlRecord where
  written
    | ⟨_, _, _, none⟩ => Members.document <| .required <| .required <| .defaulted <| .omitted rfl .nil
    | ⟨_, _, _, some _⟩ => Members.document <| .required <| .required <| .defaulted <| .defaulted .nil
  read h := by
    refine RecordDocument.read h rfl (by decide) fun f hstands => ?_
    obtain ⟨hname, hport, hexposedPort, hcontainer⟩ := hstands
    simp [Fields.required_eq hname, Fields.required_eq hport, Fields.orElse_eq hexposedPort,
      Fields.orElse_eq hcontainer]

instance : HasDocuments Supervisor :=
  ⟨fun s => RecordDocument [
    .defaulted "binaryPath" s.binaryPath Supervisor.standard.binaryPath,
    .defaulted "confFile" s.confFile Supervisor.standard.confFile,
    .defaulted "mountPath" s.mountPath Supervisor.standard.mountPath,
    .defaulted "program" s.program Supervisor.standard.program]⟩

instance : Faithful Supervisor where
  written _ := Members.document <| .defaulted <| .defaulted <| .defaulted <| .defaulted .nil
  read h := by
    refine RecordDocument.read h rfl (by decide) fun f hstands => ?_
    obtain ⟨hbinaryPath, hconfFile, hmountPath, hprogram⟩ := hstands
    simp [Fields.orElse_eq hbinaryPath, Fields.orElse_eq hconfFile, Fields.orElse_eq hmountPath,
      Fields.orElse_eq hprogram]

instance : HasDocuments Config :=
  ⟨fun c => RecordDocument [
    .defaulted "hostIp" c.hostIp Config.standard.hostIp,
    .defaulted "callTimeoutSecs" c.callTimeout Config.standard.callTimeout,
    .defaulted "execTimeoutSecs" c.execTimeout Config.standard.execTimeout,
    .defaulted "showOutput" c.showOutput Config.standard.showOutput,
    .defaulted "supervisor" c.supervisor Config.standard.supervisor]⟩

instance : Faithful Config where
  written _ := Members.document <|
    .defaulted <| .defaulted <| .defaulted <| .defaulted <| .defaulted .nil
  read h := by
    refine RecordDocument.read h rfl (by decide) fun f hstands => ?_
    obtain ⟨hhostIp, hcallTimeout, hexecTimeout, hshowOutput, hsupervisor⟩ := hstands
    simp [Fields.orElse_eq hhostIp, Fields.orElse_eq hcallTimeout, Fields.orElse_eq hexecTimeout,
      Fields.orElse_eq hshowOutput, Fields.orElse_eq hsupervisor]

instance : HasDocuments Volume :=
  ⟨fun v => RecordDocument [.required "name" v.name, .defaulted "labels" v.labels ∅]⟩

instance : Faithful Volume where
  written _ := Members.document <| .required <| .defaulted .nil
  read h := by
    refine RecordDocument.read h rfl (by decide) fun f hstands => ?_
    obtain ⟨hname, hlabels⟩ := hstands
    simp [Fields.required_eq hname, Fields.orElse_eq hlabels]

instance : HasDocuments ListedContainer :=
  ⟨fun c => RecordDocument [
    .required "id" c.id, .required "command" c.command, .defaulted "labels" c.labels ∅]⟩

instance : Faithful ListedContainer where
  written _ := Members.document <| .required <| .required <| .defaulted .nil
  read h := by
    refine RecordDocument.read h rfl (by decide) fun f hstands => ?_
    obtain ⟨hid, hcommand, hlabels⟩ := hstands
    simp [Fields.required_eq hid, Fields.required_eq hcommand, Fields.orElse_eq hlabels]

instance : HasDocuments Mount :=
  ⟨fun m => RecordDocument [.required "source" m.source, .required "target" m.target]⟩

instance : Faithful Mount where
  written _ := Members.document <| .required <| .required .nil
  read h := by
    refine RecordDocument.read h rfl (by decide) fun f hstands => ?_
    obtain ⟨hsource, htarget⟩ := hstands
    simp [Fields.required_eq hsource, Fields.required_eq htarget]

instance : HasDocuments PortBinding :=
  ⟨fun b => RecordDocument [
    .required "container_port" b.containerPort, .required "host_ip" b.hostIp,
    .required "host_port" b.hostPort]⟩

instance : Faithful PortBinding where
  written _ := Members.document <| .required <| .required <| .required .nil
  read h := by
    refine RecordDocument.read h rfl (by decide) fun f hstands => ?_
    obtain ⟨hcontainerPort, hhostIp, hhostPort⟩ := hstands
    simp [Fields.required_eq hcontainerPort, Fields.required_eq hhostIp, Fields.required_eq hhostPort]

instance : HasDocuments ContainerConfig :=
  ⟨fun c => RecordDocument [
    .required "image" c.image, .defaulted "command" c.command [], .defaulted "args" c.args [],
    .defaulted "env" c.env [], .defaulted "labels" c.labels ∅,
    .defaulted "exposed_ports" c.exposedPorts []]⟩

instance : Faithful ContainerConfig where
  written _ := Members.document <|
    .required <| .defaulted <| .defaulted <| .defaulted <| .defaulted <| .defaulted .nil
  read h := by
    refine RecordDocument.read h rfl (by decide) fun f hstands => ?_
    obtain ⟨himage, hcommand, hargs, henv, hlabels, hexposedPorts⟩ := hstands
    simp [Fields.required_eq himage, Fields.orElse_eq hcommand, Fields.orElse_eq hargs,
      Fields.orElse_eq henv, Fields.orElse_eq hlabels, Fields.orElse_eq hexposedPorts]

instance : HasDocuments HostConfig :=
  ⟨fun h => RecordDocument [
    .defaulted "port_bindings" h.portBindings [], .defaulted "mounts" h.mounts []]⟩

instance : Faithful HostConfig where
  written _ := Members.document <| .defaulted <| .defaulted .nil
  read h := by
    refine RecordDocument.read h rfl (by decide) fun f hstands => ?_
    obtain ⟨hportBindings, hmounts⟩ := hstands
    simp [Fields.orElse_eq hportBindings, Fields.orElse_eq hmounts]

instance : HasDocuments Definition :=
  ⟨fun d => RecordDocument [.required "config" d.config, .required "host" d.host]⟩

instance : Faithful Definition where
  written _ := Members.document <| .required <| .required .nil
  read h := by
    refine RecordDocument.read h rfl (by decide) fun f hstands => ?_
    obtain ⟨hconfig, hhost⟩ := hstands
    simp [Fields.required_eq hconfig, Fields.required_eq hhost]

/-- What is written of a value reads back as this value; it is one of the value's documents, all of which
read as the value. -/
def Decodes (α : Type) [JsonForm α] [HasDocuments α] : Prop :=
  ∀ v : α, ofJson? (toJson v) = some v ∧ IsDocument v (toJson v) ∧
    ∀ j, IsDocument v j → ofJson? j = some v

theorem decodes_of_faithful {α : Type} [JsonForm α] [HasDocuments α] [Faithful α] : Decodes α := by
  intro v
  have hwritten : IsDocument v (toJson v) := Faithful.written v
  exact ⟨Faithful.read hwritten, hwritten, fun j hj => Faithful.read hj⟩

/-- Reading undoes writing for every type that is stored or exchanged, and gives the same value from every
other document of it. -/
theorem forms_decode :
    Decodes Component ∧ Decodes EnvVar ∧ Decodes Endpoint ∧ Decodes VolumeMount ∧ Decodes Command ∧
    Decodes UrlRecord ∧ Decodes Config ∧ Decodes Supervisor ∧ Decodes Volume ∧
    Decodes ListedContainer ∧ Decodes Mount ∧ Decodes PortBinding ∧ Decodes ContainerConfig ∧
    Decodes HostConfig ∧ Decodes Definition := by
  refine ⟨?_, ?_, ?_, ?_, ?_, ?_, ?_, ?_, ?_, ?_, ?_, ?_, ?_, ?_, ?_⟩ <;> exact decodes_of_faithful

-- The array of a record's fields may end before those that hold their defaults.
example : ofJson? (.array [.text "web", .nat 8080]) = some (⟨"web", 8080, 0, none⟩ : UrlRecord) := by
  decide +kernel

end DevfilePush
