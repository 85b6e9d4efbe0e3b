import DevfilePush.Config.Basic
import DevfilePush.Yaml.Read

/-!
# Configuration files

A configuration is read from a YAML document that gives some of its fields; the others keep their
defaults. What was read is then checked.

## Main definitions

* `Config.ofNode`: the configuration that a document gives.
* `Config.load`: the checked configuration of a file's bytes.
-/

namespace DevfilePush

open Yaml (Document Node Reading fieldOr)

/-- The supervisor that a node gives. -/
def Supervisor.ofNode (d : Document) (node : Node) : Reading Supervisor := do
  let fields ← d.fields ["binaryPath", "confFile", "mountPath", "program"] node
  return {
    binaryPath := ← fieldOr fields "binaryPath" standard.binaryPath d.text
    confFile := ← fieldOr fields "confFile" standard.confFile d.text
    mountPath := ← fieldOr fields "mountPath" standard.mountPath d.text
    program := ← fieldOr fields "program" standard.program d.text }

/-- A number of seconds that a node gives. -/
def secondsOfNode (d : Document) (node : Node) : Reading UInt64 :=
  UInt64.ofNat <$> d.natural UInt64.size node

namespace Config

/-- The configuration that a node gives. -/
def ofNode (d : Document) (node : Node) : Reading Config := do
  let fields ← d.fields
    ["hostIp", "callTimeoutSecs", "execTimeoutSecs", "showOutput", "supervisor"] node
  return {
    hostIp := ← fieldOr fields "hostIp" standard.hostIp d.text
    callTimeout := ← fieldOr fields "callTimeoutSecs" standard.callTimeout (secondsOfNode d)
    execTimeout := ← fieldOr fields "execTimeoutSecs" standard.execTimeout (secondsOfNode d)
    showOutput := ← fieldOr fields "showOutput" standard.showOutput d.bool
    supervisor := ← fieldOr fields "supervisor" standard.supervisor (Supervisor.ofNode d) }

/-- The configuration of a YAML stream. -/
def ofYaml (bytes : ByteArray) : Except PushError Config :=
  match Document.ofBytes bytes with
  | .error fault => .error (.malformed fault.message)
  | .ok d =>
    match d.read? ofNode with
    | some config => .ok config
    | none => .error (.malformed "the document is not a configuration")

/-- The configuration of a file's bytes, if they are not too many and it is accepted. -/
def load (bytes : ByteArray) : Except PushError Config := do
  if Conventions.fileSizeLimit < bytes.size then
    .error (.invalid (.configTooLarge bytes.size Conventions.fileSizeLimit))
  else
    let config ← ofYaml bytes
    config.check.mapError .invalid
    return config

end Config

end DevfilePush
