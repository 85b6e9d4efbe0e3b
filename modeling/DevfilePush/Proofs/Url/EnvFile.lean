import DevfilePush.Proofs.Push.Phases
import DevfilePush.Proofs.Url.Blank
import DevfilePush.Proofs.Url.Records
import DevfilePush.Proofs.Yaml.Written

/-!
# Environment files

Loading an environment file gives all of the records that it lists or none of them: a record that is not
complete and of the right types makes the whole file malformed, wherever in the list it stands. Records
that were written are read back. A push whose records cannot be loaded asks nothing of the engine.

## Main definitions

* `UrlRecord.encoding`: a record as it is written.
* `HasUrlNode`: the node that a document has for the list of records.
* `LoadsUrls`: what becomes of the content of a file.

## Main statements

* `UrlRecord.isGivenBy_of_holds`: a record is read back from its encoding.
* `loadsUrls_urlsOfBytes`: what becomes of content that is not too large.
* `loadEnvFile_exact`: what becomes of every environment file, and of a push if it cannot be loaded.
-/

namespace DevfilePush

open Yaml (Data Document Node Given)
open Yaml.Document (KnownOnce)

variable {d : Document} {node : Node} {nodes : List Node} {urls : List UrlRecord}

/-! ## Records as they are written -/

namespace UrlRecord

/-- A record as it is written: a container only where there is one. -/
def encoding (url : UrlRecord) : Data :=
  .record <| [("Name", .text url.name), ("Port", .number url.port.toNat),
    ("ExposedPort", .number url.exposedPort.toNat)] ++
    url.container.toList.map fun aliasName => ("Container", .text aliasName)

/-- A record is read back from its encoding. -/
theorem isGivenBy_of_holds {url : UrlRecord} (h : node.Holds url.encoding) : url.IsGivenBy d node := by
  obtain ⟨nodes, record, holds⟩ := h.isRecord (d := d)
  obtain ⟨urlName, urlPort, urlExposed, urlContainer⟩ := url
  have isPort : ∀ {node : Node} {port : Port}, node.Holds (.number port.toNat) → IsPort d node port :=
    fun h => h.isNatural (UInt16.toNat_lt_size _)
  cases urlContainer with
  | none =>
    obtain _ | ⟨hname, _ | ⟨hport, _ | ⟨hexposed, _ | _⟩⟩⟩ := holds
    refine ⟨_, record, ?_, ⟨_, by simp, hname.isText⟩, ⟨_, by simp, isPort hport⟩,
      .present (by simp) (isPort hexposed), .absent (by simp)⟩
    simp [KnownOnce, Document.known, Document.isKnown, keys]
  | some aliasName =>
    obtain _ | ⟨hname, _ | ⟨hport, _ | ⟨hexposed, _ | ⟨hcontainer, _ | _⟩⟩⟩⟩ := holds
    refine ⟨_, record, ?_, ⟨_, by simp, hname.isText⟩, ⟨_, by simp, isPort hport⟩,
      .present (by simp) (isPort hexposed), .present (by simp) hcontainer.isOptionalText⟩
    simp [KnownOnce, Document.known, Document.isKnown, keys]

end UrlRecord

/-! ## Content -/

/-- The document has the node for the list of records, under the settings of the component. -/
def HasUrlNode (d : Document) (node : Node) : Prop :=
  ∃ entries settings inner, d.IsRecord d.root entries ∧ KnownOnce ["ComponentSettings"] entries ∧
    ("ComponentSettings", settings) ∈ entries ∧ d.IsRecord settings inner ∧ KnownOnce ["Url"] inner ∧
    ("Url", node) ∈ inner

/-- The document has no settings of a component, or none of the URLs among them. -/
def LacksUrls (d : Document) : Prop :=
  ∃ entries, d.IsRecord d.root entries ∧ KnownOnce ["ComponentSettings"] entries ∧
    ((∀ node, ("ComponentSettings", node) ∉ entries) ∨
      ∃ settings inner, ("ComponentSettings", settings) ∈ entries ∧ d.IsRecord settings inner ∧
        ∀ node, ("Url", node) ∉ inner)

theorem HasUrlNode.listsUrls (h : HasUrlNode d node) (list : d.IsList node nodes) :
    ListsUrls d nodes := by
  obtain ⟨entries, settings, inner, record, once, mem, record', once', mem'⟩ := h
  exact ⟨entries, record, once, .present mem ⟨inner, record', once', .present mem' list⟩⟩

theorem LacksUrls.listsUrls (h : LacksUrls d) : ListsUrls d [] := by
  obtain ⟨entries, record, once, absent | ⟨settings, inner, mem, record', absent⟩⟩ := h
  · exact ⟨entries, record, once, .absent absent⟩
  · exact ⟨entries, record, once, .present mem
      ⟨inner, record', Document.knownOnce_of_absent absent, .absent absent⟩⟩

section Content

variable {bytes : ByteArray}

/-- A document says of its records what it says when blank files are not told apart. -/
theorem urlsOfBytes_of_document (h : Document.ofBytes bytes = .ok d) :
    urlsOfBytes bytes = match d.read? componentUrls with
      | some urls => .ok urls
      | none => .error (.malformed "the document does not hold records of URLs") := by
  unfold urlsOfBytes
  split
  · rename_i blank
    have hempty : d.read? componentUrls = some [] := by
      rw [Document.read?, Document.root_of_blank blank h]
      rfl
    rw [hempty]
  · cases hread : d.read? componentUrls <;> simp only [h, hread]

/-- What is loaded is what the document lists. -/
theorem lists_of_urlsOfBytes (h : Document.ofBytes bytes = .ok d) (hurls : urlsOfBytes bytes = .ok urls) :
    ∃ nodes, ListsUrls d nodes ∧ List.Forall₂ (fun node url => url.IsGivenBy d node) nodes urls := by
  rw [urlsOfBytes_of_document h] at hurls
  cases hread : d.read? componentUrls with
  | none =>
    rw [hread] at hurls
    cases hurls
  | some urls' =>
    rw [hread] at hurls
    obtain rfl := Except.ok.inj hurls
    exact listsUrls_of_componentUrls (Document.canGive_of_read? hread)

/-- What is listed is loaded, if no item of the list is a reference. -/
theorem urlsOfBytes_of_lists (h : Document.ofBytes bytes = .ok d) (lists : ListsUrls d nodes)
    (direct : ∀ node ∈ nodes, node.Direct)
    (given : List.Forall₂ (fun node url => url.IsGivenBy d node) nodes urls) :
    urlsOfBytes bytes = .ok urls := by
  have m := Document.measured_of_ofBytes h
  have hread := m.read?_eq_some (by decide) ⟨[], fun budget => rfl⟩
    (componentUrls_gives_direct m lists direct given)
  rw [urlsOfBytes_of_document h, hread]

/-- What is listed is loaded, unless more references have to be followed than may be. -/
theorem urlsOfBytes_of_lists_within (h : Document.ofBytes bytes = .ok d) (lists : ListsUrls d nodes)
    (given : List.Forall₂ (fun node url => url.IsGivenBy d node) nodes urls) :
    ∃ n, (componentUrls d d.root).Gives n urls ∧
      urlsOfBytes bytes = if n ≤ Yaml.referencesPerEvent * d.size then .ok urls
        else .error (.malformed "the document does not hold records of URLs") := by
  have m := Document.measured_of_ofBytes h
  obtain ⟨n, -, hgives⟩ := componentUrls_gives m (urlsOfNode_gives_bounded m) lists given
  refine ⟨n, hgives, ?_⟩
  rw [urlsOfBytes_of_document h, Document.read?_of_gives hgives]
  by_cases hn : n ≤ Yaml.referencesPerEvent * d.size
  · rw [if_pos hn, if_pos hn]
  · rw [if_neg hn, if_neg hn]

/-- Nodes that do not all give records make the content malformed. -/
theorem urlsOfBytes_of_misfit (h : Document.ofBytes bytes = .ok d) (lists : ListsUrls d nodes)
    (misfit : ∀ urls, ¬ List.Forall₂ (fun node (url : UrlRecord) => url.IsGivenBy d node) nodes urls) :
    urlsOfBytes bytes = .error (.malformed "the document does not hold records of URLs") := by
  have hread : d.read? componentUrls = none := by
    refine Option.eq_none_iff_forall_ne_some.2 fun urls hread => ?_
    obtain ⟨nodes', lists', given⟩ := listsUrls_of_componentUrls (Document.canGive_of_read? hread)
    obtain rfl := lists.unique lists'
    exact misfit urls given
  rw [urlsOfBytes_of_document h, hread]

end Content

/-- What becomes of the content of the environment file at a path. -/
structure LoadsUrls (path : String) (bytes : ByteArray) (outcome : Except PushError (List UrlRecord)) :
    Prop where
  /-- Content that is too large is refused, blank or not. -/
  large : Conventions.fileSizeLimit < bytes.size →
    outcome = .error (.invalid (.envFileTooLarge path Conventions.fileSizeLimit))
  blank : bytes.size ≤ Conventions.fileSizeLimit → bytes.data.all isBlankOctet = true → outcome = .ok []
  unreadable : ∀ fault, bytes.size ≤ Conventions.fileSizeLimit → bytes.data.all isBlankOctet = false →
    Document.ofBytes bytes = .error fault → outcome = .error (.malformed fault.message)
  lacking : ∀ d, bytes.size ≤ Conventions.fileSizeLimit → Document.ofBytes bytes = .ok d → LacksUrls d →
    outcome = .ok []
  /-- All records are loaded in their order, if no item of the list is a reference. -/
  direct : ∀ d nodes urls, bytes.size ≤ Conventions.fileSizeLimit → Document.ofBytes bytes = .ok d →
    ListsUrls d nodes → (∀ node ∈ nodes, node.Direct) →
    List.Forall₂ (fun node url => url.IsGivenBy d node) nodes urls → outcome = .ok urls
  /-- All records are loaded, or more references would have to be followed than may be. -/
  within : ∀ d nodes urls, bytes.size ≤ Conventions.fileSizeLimit → Document.ofBytes bytes = .ok d →
    ListsUrls d nodes → List.Forall₂ (fun node url => url.IsGivenBy d node) nodes urls →
    ∃ n, (componentUrls d d.root).Gives n urls ∧
      outcome = if n ≤ Yaml.referencesPerEvent * d.size then .ok urls
        else .error (.malformed "the document does not hold records of URLs")
  /-- What is loaded is all that is listed. -/
  all : ∀ d urls, Document.ofBytes bytes = .ok d → outcome = .ok urls →
    ∃ nodes, ListsUrls d nodes ∧ List.Forall₂ (fun node url => url.IsGivenBy d node) nodes urls
  /-- One malformed record, at any place, makes the file malformed. -/
  malformed : ∀ d nodes, bytes.size ≤ Conventions.fileSizeLimit → Document.ofBytes bytes = .ok d →
    ListsUrls d nodes → ∀ node ∈ nodes,
    (∀ entries, d.IsRecord node entries → KnownOnce UrlRecord.keys entries →
      UrlRecord.Malformed d entries) →
    ∃ reason, outcome = .error (.malformed reason)
  /-- Nothing but what the listed nodes give matters. -/
  alike : ∀ bytes' d d' nodes nodes', bytes.size ≤ Conventions.fileSizeLimit →
    Document.ofBytes bytes = .ok d → Document.ofBytes bytes' = .ok d' →
    ListsUrls d nodes → ListsUrls d' nodes' →
    (∀ node ∈ nodes, node.Direct) → (∀ node ∈ nodes', node.Direct) →
    List.Forall₂ (fun node node' => ∀ url : UrlRecord, url.IsGivenBy d' node' ↔ url.IsGivenBy d node)
      nodes nodes' →
    urlsOfBytes bytes' = outcome
  /-- Records that were written are read back. -/
  readBack : ∀ d node urls, bytes.size ≤ Conventions.fileSizeLimit → Document.ofBytes bytes = .ok d →
    HasUrlNode d node → node.Holds (.list (urls.map UrlRecord.encoding)) → outcome = .ok urls

section Content

variable {bytes : ByteArray}

/-- A malformed record gives nothing, so the list gives no records. -/
theorem not_forall₂_of_malformed (hnode : node ∈ nodes)
    (malformed : ∀ entries, d.IsRecord node entries → KnownOnce UrlRecord.keys entries →
      UrlRecord.Malformed d entries) (urls : List UrlRecord) :
    ¬ List.Forall₂ (fun node url => url.IsGivenBy d node) nodes urls := by
  intro given
  obtain ⟨url, -, entries, record, once, hurl⟩ := exists_of_forall₂ given node hnode
  exact (UrlRecord.exists_givenIn_iff once).1 ⟨url, hurl⟩ (malformed entries record once)

/-- Lists that give the same records, one by one, give the same lists of records. -/
theorem forall₂_isGivenBy_congr {d' : Document} {nodes' : List Node}
    (same : List.Forall₂
      (fun node node' => ∀ url : UrlRecord, url.IsGivenBy d' node' ↔ url.IsGivenBy d node) nodes nodes') :
    List.Forall₂ (fun node url => url.IsGivenBy d' node) nodes' urls ↔
      List.Forall₂ (fun node url => url.IsGivenBy d node) nodes urls := by
  induction same generalizing urls with
  | nil => simp
  | cons hsame _ ih =>
    cases urls with
    | nil => simp
    | cons url urls => rw [List.forall₂_cons, List.forall₂_cons, hsame url, ih]

/-- Records that were written are listed by nodes that give them. -/
theorem forall₂_isGivenBy_of_holds (h : List.Forall₂ Node.Holds nodes (urls.map UrlRecord.encoding)) :
    List.Forall₂ (fun node url => url.IsGivenBy d node) nodes urls :=
  (List.forall₂_map_right_iff.1 h).imp fun _ _ => UrlRecord.isGivenBy_of_holds

theorem loadsUrls_of_large (path : String) (large : Conventions.fileSizeLimit < bytes.size) :
    LoadsUrls path bytes (.error (.invalid (.envFileTooLarge path Conventions.fileSizeLimit))) := by
  have never : ¬ bytes.size ≤ Conventions.fileSizeLimit := Nat.not_le.2 large
  constructor
  case large => exact fun _ => rfl
  case all =>
    intro d urls _ hurls
    cases hurls
  all_goals intros; contradiction

/-- What becomes of content that is not too large is what its document says. -/
theorem loadsUrls_urlsOfBytes (path : String) (small : bytes.size ≤ Conventions.fileSizeLimit) :
    LoadsUrls path bytes (urlsOfBytes bytes) where
  large large := absurd small (Nat.not_le.2 large)
  blank _ blank := if_pos blank
  unreadable fault _ hblank h := by
    rw [urlsOfBytes, hblank, if_neg Bool.false_ne_true, h]
  lacking d _ h lacks := urlsOfBytes_of_lists h lacks.listsUrls (by simp) .nil
  direct d nodes urls _ h lists direct given := urlsOfBytes_of_lists h lists direct given
  within d nodes urls _ h lists given := urlsOfBytes_of_lists_within h lists given
  all d urls h hurls := lists_of_urlsOfBytes h hurls
  malformed d nodes _ h lists node hnode malformed :=
    ⟨_, urlsOfBytes_of_misfit h lists (not_forall₂_of_malformed hnode malformed)⟩
  alike bytes' d d' nodes nodes' _ h h' lists lists' direct direct' same := by
    by_cases hgiven : ∃ urls, List.Forall₂ (fun node (url : UrlRecord) => url.IsGivenBy d node) nodes urls
    · obtain ⟨urls, given⟩ := hgiven
      rw [urlsOfBytes_of_lists h lists direct given,
        urlsOfBytes_of_lists h' lists' direct' ((forall₂_isGivenBy_congr same).2 given)]
    · rw [not_exists] at hgiven
      have hgiven' := fun urls given => hgiven urls ((forall₂_isGivenBy_congr same).1 given)
      rw [urlsOfBytes_of_misfit h lists hgiven, urlsOfBytes_of_misfit h' lists' hgiven']
  readBack d node urls _ h hasNode holds := by
    obtain ⟨nodes, list, hnodes⟩ := holds.isList (d := d)
    have direct : ∀ node ∈ nodes, node.Direct := fun node hnode =>
      let ⟨_, _, h⟩ := exists_of_forall₂ hnodes node hnode
      h.direct
    exact urlsOfBytes_of_lists h (hasNode.listsUrls list) direct (forall₂_isGivenBy_of_holds hnodes)

end Content

/-! ## Files -/

section Files

variable {files : FileTree} {directory : String} {path : Option String}

/-- A file that is missing holds no records. -/
theorem loadEnvFile_missing
    (h : files.find (joinPath directory (path.getD Conventions.envFilePath)) = .error .notFound) :
    (loadEnvFile files directory path).urls = .ok [] := by
  simp only [loadEnvFile, h]

/-- What becomes of a file is what becomes of its content. -/
theorem loadsUrls_loadEnvFile {bytes : ByteArray}
    (h : files.find (joinPath directory (path.getD Conventions.envFilePath)) = .ok (.file bytes)) :
    LoadsUrls (joinPath directory (path.getD Conventions.envFilePath)) bytes
      (loadEnvFile files directory path).urls := by
  simp only [loadEnvFile, h]
  by_cases large : Conventions.fileSizeLimit < bytes.size
  · rw [if_pos large]
    exact loadsUrls_of_large _ large
  · rw [if_neg large]
    exact loadsUrls_urlsOfBytes _ (Nat.not_lt.1 large)

/-- **Environment files.** A missing file holds no records; of one that is there, all of its records are
loaded or none. Neither the order of a record's entries nor those of unknown keys change what it gives. A
push whose records cannot be loaded ends with that and asks nothing of the engine. -/
theorem loadEnvFile_exact (files : FileTree) (directory : String) (path : Option String) :
    (files.find (joinPath directory (path.getD Conventions.envFilePath)) = .error .notFound →
      (loadEnvFile files directory path).urls = .ok []) ∧
    (∀ bytes,
      files.find (joinPath directory (path.getD Conventions.envFilePath)) = .ok (.file bytes) →
      LoadsUrls (joinPath directory (path.getD Conventions.envFilePath)) bytes
        (loadEnvFile files directory path).urls) ∧
    (∀ d entries entries', (∀ name ∈ UrlRecord.keys, ∀ node,
        (name, node) ∈ entries' ↔ (name, node) ∈ entries) →
      ∀ url : UrlRecord, url.GivenIn d entries' ↔ url.GivenIn d entries) ∧
    ∀ error, (loadEnvFile files directory path).urls = .error error →
      ∀ (p : Push) config engine before trace verdict after, p.directory = directory →
        p.check = .ok () →
        ((p.script config (loadEnvFile files p.directory path)).Runs engine before trace verdict after ↔
          trace = p.opening (loadEnvFile files p.directory path) ∧
            verdict = .error (.urlsUnavailable p.component error.message) ∧ after = before) ∧
        Happening.calls (p.opening (loadEnvFile files p.directory path)) = [] := by
  refine ⟨loadEnvFile_missing, fun bytes => loadsUrls_loadEnvFile,
    fun d entries entries' same url => UrlRecord.givenIn_congr same, ?_⟩
  rintro error herror p config engine before trace verdict after rfl passed
  exact ⟨Push.runs_script_unloaded_iff passed herror, Push.calls_opening p _⟩

-- Other keys are passed over; where a second record has no port, the first one is not loaded either.
example :
    let written := "ComponentSettings:\n  Name: frontend\n  Url:\n  - Name: app\n    Port: 8080\n"
    (urlsOfBytes written.toUTF8).toOption = some [⟨"app", 8080, 0, none⟩] ∧
      (urlsOfBytes (written ++ "  - Name: db\n").toUTF8).toOption = none := by
  decide +kernel

end Files

end DevfilePush
