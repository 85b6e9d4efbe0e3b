import DevfilePush.FileTree
import DevfilePush.Url.PortMap
import DevfilePush.Push
import DevfilePush.Yaml.Read

/-!
# Where exposed URLs come from

The URLs of a component are given, or cannot be had, or stand in the component's environment file. A
missing or blank file means that there are none; any malformed record means an error and no records.

## Main definitions

* `componentUrls`: the records in a document.
* `loadEnvFile`: the records in a component's environment file.
* `UrlSource`, `UrlSource.listing`
-/

namespace DevfilePush

open Yaml (Document Node Reading fieldOr field)

/-! ## Records -/

/-- A port that a node gives. -/
def portOfNode (d : Document) (node : Node) : Reading Port :=
  UInt16.ofNat <$> d.natural UInt16.size node

/-- The record that a node gives. -/
def UrlRecord.ofNode (d : Document) (node : Node) : Reading UrlRecord := do
  let fields ← d.fields ["Name", "Port", "ExposedPort", "Container"] node
  return {
    name := ← field fields "Name" d.text
    port := ← field fields "Port" (portOfNode d)
    exposedPort := ← fieldOr fields "ExposedPort" 0 (portOfNode d)
    container := ← fieldOr fields "Container" none d.optionalText }

/-- The records that a node gives. -/
def urlsOfNode (d : Document) (node : Node) : Reading (List UrlRecord) := do
  (← d.items node).mapM (UrlRecord.ofNode d)

/-- The records in a component's settings. -/
def settingsUrls (d : Document) (node : Node) : Reading (List UrlRecord) := do
  fieldOr (← d.fields ["Url"] node) "Url" [] (urlsOfNode d)

/-- The records in the settings that a node holds. -/
def componentUrls (d : Document) (node : Node) : Reading (List UrlRecord) := do
  fieldOr (← d.fields ["ComponentSettings"] node) "ComponentSettings" [] (settingsUrls d)

/-! ## Files -/

/-- Whether an octet is a space, a tab, a line feed, a form feed or a carriage return. -/
def isBlankOctet (octet : UInt8) : Bool :=
  octet = 0x20 || octet = 0x09 || octet = 0x0A || octet = 0x0C || octet = 0x0D

/-- The records of a file's bytes. -/
def urlsOfBytes (bytes : ByteArray) : Except PushError (List UrlRecord) :=
  if bytes.data.all isBlankOctet then .ok []
  else match Document.ofBytes bytes with
    | .error fault => .error (.malformed fault.message)
    | .ok d =>
      match d.read? componentUrls with
      | some urls => .ok urls
      | none => .error (.malformed "the document does not hold records of URLs")

/-- The records in the environment file of a component's directory, at a path below it. -/
def loadEnvFile (files : FileTree) (directory : String) (path : Option String) : UrlListing :=
  let path := joinPath directory (path.getD Conventions.envFilePath)
  match files.find path with
  | .error .notFound => ⟨[.noEnvFile path], .ok []⟩
  | .error fault => ⟨[], .error (.fileSystem fault.message)⟩
  | .ok .directory => ⟨[], .error (.fileSystem PathFault.isDirectory.message)⟩
  | .ok (.file bytes) =>
    if Conventions.fileSizeLimit < bytes.size then
      ⟨[], .error (.invalid (.envFileTooLarge path Conventions.fileSizeLimit))⟩
    else ⟨[], urlsOfBytes bytes⟩

/-! ## Sources -/

/-- Where the URLs of a component come from. -/
inductive UrlSource where
  /-- They are these. -/
  | listed (urls : List UrlRecord)
  /-- They cannot be had. -/
  | failing (error : PushError)
  /-- They are in the environment file, at a path of its own or at the usual one. -/
  | envFile (path : Option String)

/-- The URLs of the component in a directory. -/
def UrlSource.listing (source : UrlSource) (files : FileTree) (directory : String) : UrlListing :=
  match source with
  | listed urls => ⟨[], .ok urls⟩
  | failing error => ⟨[], .error error⟩
  | envFile path => loadEnvFile files directory path

end DevfilePush
