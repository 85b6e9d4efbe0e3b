import DevfilePush.Config.Document
import DevfilePush.Proofs.Yaml.Reading
import Mathlib.Tactic.MkIffOfInductiveProp

/-!
# A configuration laid over the defaults

A configuration file gives some fields and leaves the others at their defaults, those of the supervisor
likewise. What a document gives is laid down here by which entries it has, so neither the order of keys
nor unknown keys can matter. Reading follows at most a few references for each entry, so the limit on
them never decides: a document is refused only for a value that is not of the right type.

## Main definitions

* `Supervisor.IsGivenBy`, `Config.GivenIn`: what a document gives.
* `Supervisor.Fits`, `Config.Fits`: whether the value of a key is of the right type.
* `Config.Verdict`: what becomes of a configuration that was read.

## Main statements

* `Config.read?_eq_some_iff`: reading gives what the document gives.
* `Config.verdict_checked`: the first check that fails decides.
* `Config.load_exact`: what loading makes of a file.
-/

namespace DevfilePush

open Yaml (Document Node Reading Given exists_given fieldOr fieldOr_gives given_of_fieldOr)
open Yaml.Document (KnownOnce Shows)

/-! ## The supervisor -/

namespace Supervisor

/-- The keys that are known in the supervisor's mapping. -/
def keys : List String := ["binaryPath", "confFile", "mountPath", "program"]

/-- The supervisor that the entries give: the given value of each key that is there, and the default of
each that is not. -/
@[mk_iff]
structure GivenIn (s : Supervisor) (d : Document) (entries : List (String × Node)) : Prop where
  binaryPath : Given entries "binaryPath" standard.binaryPath d.IsText s.binaryPath
  confFile : Given entries "confFile" standard.confFile d.IsText s.confFile
  mountPath : Given entries "mountPath" standard.mountPath d.IsText s.mountPath
  program : Given entries "program" standard.program d.IsText s.program

/-- A node is a mapping that gives the supervisor, and none of the known keys comes twice. -/
def IsGivenBy (s : Supervisor) (d : Document) (node : Node) : Prop :=
  ∃ entries, d.IsRecord node entries ∧ KnownOnce keys entries ∧ s.GivenIn d entries

/-- The value of a key is of the right type, if the key is known. -/
def Fits (d : Document) (e : String × Node) : Prop := e.1 ∈ keys → ∃ text, d.IsText e.2 text

/-- The node is a mapping in which none of the known keys comes twice and all of them fit. -/
def FitsIn (d : Document) (node : Node) : Prop :=
  ∃ entries, d.IsRecord node entries ∧ KnownOnce keys entries ∧ ∀ e ∈ entries, Fits d e

variable {d : Document} {node : Node} {s : Supervisor} {entries entries' : List (String × Node)}

/-- Neither the order of entries nor those of unknown keys matter. -/
theorem givenIn_congr
    (same : ∀ name ∈ keys, ∀ node, (name, node) ∈ entries' ↔ (name, node) ∈ entries) :
    s.GivenIn d entries' ↔ s.GivenIn d entries := by
  simp only [givenIn_iff, Given.congr (same "binaryPath" (by decide)),
    Given.congr (same "confFile" (by decide)), Given.congr (same "mountPath" (by decide)),
    Given.congr (same "program" (by decide))]

theorem exists_isGivenBy (fits : FitsIn d node) : ∃ s : Supervisor, s.IsGivenBy d node := by
  obtain ⟨entries, record, once, fits⟩ := fits
  have given : ∀ name ∈ keys, ∀ default, ∃ value, Given entries name default d.IsText value :=
    fun name hname default => exists_given (fun node hnode => fits (name, node) hnode hname) default
  obtain ⟨binaryPath, hbinary⟩ := given "binaryPath" (by decide) standard.binaryPath
  obtain ⟨confFile, hconf⟩ := given "confFile" (by decide) standard.confFile
  obtain ⟨mountPath, hmount⟩ := given "mountPath" (by decide) standard.mountPath
  obtain ⟨program, hprogram⟩ := given "program" (by decide) standard.program
  exact ⟨⟨binaryPath, confFile, mountPath, program⟩, entries, record, once, hbinary, hconf, hmount,
    hprogram⟩

theorem fitsIn_of_isGivenBy (given : s.IsGivenBy d node) : FitsIn d node := by
  obtain ⟨entries, record, once, given⟩ := given
  refine ⟨entries, record, once, ?_⟩
  rintro ⟨name, node⟩ hmem hknown
  simp only [keys, List.mem_cons, List.not_mem_nil, or_false] at hknown
  rcases hknown with rfl | rfl | rfl | rfl
  · exact given.binaryPath.exists_stands once (by decide) hmem
  · exact given.confFile.exists_stands once (by decide) hmem
  · exact given.mountPath.exists_stands once (by decide) hmem
  · exact given.program.exists_stands once (by decide) hmem

theorem ofNode_gives (given : s.IsGivenBy d node) :
    (ofNode d node).GivesWithin (5 + (d.resolve node).extent) s := by
  obtain ⟨entries, record, once, given⟩ := given
  obtain ⟨fields, shows, hfields⟩ := Document.fields_gives record once
  have text : ∀ name ∈ keys, ∀ {default value}, Given entries name default d.IsText value →
      (fieldOr fields name default d.text).GivesWithin 1 value :=
    fun name hname _ _ => fieldOr_gives shows hname fun _ _ _ => Document.text_gives
  have hlength := record.length_le
  have hgives : (ofNode d node).GivesWithin (1 + entries.length + (1 + (1 + (1 + (1 + 0))))) s :=
    hfields.bind <| (text "binaryPath" (by decide) given.binaryPath).bind <|
      (text "confFile" (by decide) given.confFile).bind <|
      (text "mountPath" (by decide) given.mountPath).bind <|
      (text "program" (by decide) given.program).bind <| Reading.givesWithin_pure _ 0
  exact hgives.mono (by omega)

theorem isGivenBy_of_ofNode (h : (ofNode d node).CanGive s) : s.IsGivenBy d node := by
  obtain ⟨fields, hfields, h⟩ := h.bind
  obtain ⟨entries, record, once, shows⟩ := Document.isRecord_of_fields hfields
  obtain ⟨binaryPath, hbinary, h⟩ := h.bind
  obtain ⟨confFile, hconf, h⟩ := h.bind
  obtain ⟨mountPath, hmount, h⟩ := h.bind
  obtain ⟨program, hprogram, h⟩ := h.bind
  have text : ∀ name ∈ keys, ∀ {default value},
      (fieldOr fields name default d.text).CanGive value → Given entries name default d.IsText value :=
    fun name hname _ _ => given_of_fieldOr shows hname fun _ _ => Document.isText_of_text
  rw [Reading.canGive_pure h]
  exact ⟨entries, record, once, text "binaryPath" (by decide) hbinary, text "confFile" (by decide) hconf,
    text "mountPath" (by decide) hmount, text "program" (by decide) hprogram⟩

end Supervisor

/-! ## The configuration -/

namespace Config

/-- The keys that are known in a configuration file. -/
def keys : List String := ["hostIp", "callTimeoutSecs", "execTimeoutSecs", "showOutput", "supervisor"]

/-- The node is a number of seconds. -/
def IsSeconds (d : Document) (node : Node) (seconds : UInt64) : Prop :=
  d.IsNatural UInt64.size node seconds.toNat

theorem exists_isSeconds {d : Document} {node : Node} {n : Nat} (h : d.IsNatural UInt64.size node n) :
    ∃ seconds, IsSeconds d node seconds :=
  Document.exists_isNatural_toNat (fun _ => UInt64.toNat_ofNat_of_lt') h

theorem seconds_gives {d : Document} {node : Node} {seconds : UInt64} (h : IsSeconds d node seconds) :
    (secondsOfNode d node).GivesWithin 1 seconds :=
  Document.ofNat_natural_gives (fun _ => UInt64.ofNat_toNat) h

theorem isSeconds_of_seconds {d : Document} {node : Node} {seconds : UInt64}
    (h : (secondsOfNode d node).CanGive seconds) : IsSeconds d node seconds :=
  Document.isNatural_of_ofNat_natural (fun _ => UInt64.toNat_ofNat_of_lt') h

/-- The configuration that the entries give: the given value of each key that is there, and the default
of each that is not. -/
@[mk_iff]
structure GivenIn (c : Config) (d : Document) (entries : List (String × Node)) : Prop where
  hostIp : Given entries "hostIp" standard.hostIp d.IsText c.hostIp
  callTimeout : Given entries "callTimeoutSecs" standard.callTimeout (IsSeconds d) c.callTimeout
  execTimeout : Given entries "execTimeoutSecs" standard.execTimeout (IsSeconds d) c.execTimeout
  showOutput : Given entries "showOutput" standard.showOutput d.IsBool c.showOutput
  supervisor :
    Given entries "supervisor" standard.supervisor (fun node s => s.IsGivenBy d node) c.supervisor

/-- The value of a key is of the right type, if the key is known. -/
structure Fits (d : Document) (e : String × Node) : Prop where
  hostIp : e.1 = "hostIp" → ∃ text, d.IsText e.2 text
  seconds : e.1 = "callTimeoutSecs" ∨ e.1 = "execTimeoutSecs" → ∃ n, d.IsNatural UInt64.size e.2 n
  showOutput : e.1 = "showOutput" → ∃ b, d.IsBool e.2 b
  supervisor : e.1 = "supervisor" → Supervisor.FitsIn d e.2

variable {d : Document} {node : Node} {c : Config} {entries entries' : List (String × Node)}

/-- Neither the order of entries nor those of unknown keys matter. -/
theorem givenIn_congr
    (same : ∀ name ∈ keys, ∀ node, (name, node) ∈ entries' ↔ (name, node) ∈ entries) :
    c.GivenIn d entries' ↔ c.GivenIn d entries := by
  simp only [givenIn_iff, Given.congr (same "hostIp" (by decide)),
    Given.congr (same "callTimeoutSecs" (by decide)), Given.congr (same "execTimeoutSecs" (by decide)),
    Given.congr (same "showOutput" (by decide)), Given.congr (same "supervisor" (by decide))]

theorem exists_givenIn (fits : ∀ e ∈ entries, Fits d e) : ∃ c : Config, c.GivenIn d entries := by
  have seconds : ∀ name, name = "callTimeoutSecs" ∨ name = "execTimeoutSecs" → ∀ default,
      ∃ value, Given entries name default (IsSeconds d) value := fun name hname =>
    exists_given fun node hnode => by
      obtain ⟨n, hn⟩ := (fits _ hnode).seconds hname
      exact exists_isSeconds hn
  obtain ⟨hostIp, hhost⟩ := exists_given (fun node hnode => (fits _ hnode).hostIp rfl) standard.hostIp
  obtain ⟨callTimeout, hcall⟩ := seconds "callTimeoutSecs" (.inl rfl) standard.callTimeout
  obtain ⟨execTimeout, hexec⟩ := seconds "execTimeoutSecs" (.inr rfl) standard.execTimeout
  obtain ⟨showOutput, hshow⟩ :=
    exists_given (fun node hnode => (fits _ hnode).showOutput rfl) standard.showOutput
  obtain ⟨supervisor, hsupervisor⟩ := exists_given
    (fun node hnode => Supervisor.exists_isGivenBy ((fits _ hnode).supervisor rfl)) standard.supervisor
  exact ⟨⟨hostIp, callTimeout, execTimeout, showOutput, supervisor⟩, hhost, hcall, hexec, hshow,
    hsupervisor⟩

theorem fits_of_givenIn (given : c.GivenIn d entries) (once : KnownOnce keys entries) :
    ∀ e ∈ entries, Fits d e := by
  rintro ⟨name, node⟩ hmem
  constructor
  · rintro rfl
    exact given.hostIp.exists_stands once (by decide) hmem
  · rintro (rfl | rfl)
    · obtain ⟨seconds, h⟩ := given.callTimeout.exists_stands once (by decide) hmem
      exact ⟨seconds.toNat, h⟩
    · obtain ⟨seconds, h⟩ := given.execTimeout.exists_stands once (by decide) hmem
      exact ⟨seconds.toNat, h⟩
  · rintro rfl
    exact given.showOutput.exists_stands once (by decide) hmem
  · rintro rfl
    obtain ⟨s, h⟩ := given.supervisor.exists_stands once (by decide) hmem
    exact Supervisor.fitsIn_of_isGivenBy h

/-- What entries give is read after one reference for each key, each value and the record, and those in
the supervisor's mapping. -/
theorem ofNode_gives (m : d.Measured) (hroot : (d.resolve node).extent ≤ d.size)
    (record : d.IsRecord node entries) (once : KnownOnce keys entries) (given : c.GivenIn d entries) :
    (ofNode d node).GivesWithin (10 + 2 * d.size) c := by
  obtain ⟨fields, shows, hfields⟩ := Document.fields_gives record once
  have seconds : ∀ name ∈ keys, ∀ {default value}, Given entries name default (IsSeconds d) value →
      (fieldOr fields name default (secondsOfNode d)).GivesWithin 1 value :=
    fun name hname _ _ => fieldOr_gives shows hname fun _ _ _ => seconds_gives
  have hhost : (fieldOr fields "hostIp" standard.hostIp d.text).GivesWithin 1 c.hostIp :=
    fieldOr_gives shows (by decide) (fun _ _ _ => Document.text_gives) given.hostIp
  have hshow : (fieldOr fields "showOutput" standard.showOutput d.bool).GivesWithin 1 c.showOutput :=
    fieldOr_gives shows (by decide) (fun _ _ _ => Document.bool_gives) given.showOutput
  have hsupervisor : (fieldOr fields "supervisor" standard.supervisor
      (Supervisor.ofNode d)).GivesWithin (5 + d.size) c.supervisor := by
    refine fieldOr_gives shows (by decide) (fun node s hmem h => ?_) given.supervisor
    have hsize : (d.resolve node).extent ≤ d.size :=
      m.resolve_extent_le (Nat.le_trans (record.extent_le hmem) hroot)
    exact (Supervisor.ofNode_gives h).mono (by omega)
  have hlength := record.length_le
  have hgives : (ofNode d node).GivesWithin
      (1 + entries.length + (1 + (1 + (1 + (1 + (5 + d.size + 0)))))) c :=
    hfields.bind <| hhost.bind <| (seconds "callTimeoutSecs" (by decide) given.callTimeout).bind <|
      (seconds "execTimeoutSecs" (by decide) given.execTimeout).bind <| hshow.bind <|
      hsupervisor.bind <| Reading.givesWithin_pure _ 0
  exact hgives.mono (by omega)

theorem givenIn_of_ofNode (h : (ofNode d node).CanGive c) (record : d.IsRecord node entries) :
    KnownOnce keys entries ∧ c.GivenIn d entries := by
  obtain ⟨fields, hfields, h⟩ := h.bind
  obtain ⟨entries', record', once, shows⟩ := Document.isRecord_of_fields hfields
  obtain rfl := record.unique record'
  obtain ⟨hostIp, hhost, h⟩ := h.bind
  obtain ⟨callTimeout, hcall, h⟩ := h.bind
  obtain ⟨execTimeout, hexec, h⟩ := h.bind
  obtain ⟨showOutput, hshow, h⟩ := h.bind
  obtain ⟨supervisor, hsupervisor, h⟩ := h.bind
  rw [Reading.canGive_pure h]
  refine ⟨once, ?_, ?_, ?_, ?_, ?_⟩
  · exact given_of_fieldOr shows (by decide) (fun _ _ => Document.isText_of_text) hhost
  · exact given_of_fieldOr shows (by decide) (fun _ _ => isSeconds_of_seconds) hcall
  · exact given_of_fieldOr shows (by decide) (fun _ _ => isSeconds_of_seconds) hexec
  · exact given_of_fieldOr shows (by decide) (fun _ _ => Document.isBool_of_bool) hshow
  · exact given_of_fieldOr shows (by decide) (fun _ _ => Supervisor.isGivenBy_of_ofNode) hsupervisor

/-! ## Documents -/

/-- **Reading.** From the document of a stream, exactly the configuration is read that its entries give.
The limit on references is never reached. -/
theorem read?_eq_some_iff {bytes : ByteArray} (hbytes : Document.ofBytes bytes = .ok d)
    (record : d.IsRecord d.root entries) (once : KnownOnce keys entries) :
    d.read? ofNode = some c ↔ c.GivenIn d entries := by
  constructor
  · exact fun h => (givenIn_of_ofNode (Document.canGive_of_read? h) record).2
  · intro given
    have m := Document.measured_of_ofBytes hbytes
    exact m.read?_eq_some (by decide) ⟨standard, fun budget => rfl⟩
      (ofNode_gives m (m.resolve_extent_le m.root_extent_le) record once given)

/-! ## Files -/

/-- What becomes of a configuration that was read: the first check that fails decides. -/
inductive Verdict (c : Config) : Except PushError Config → Prop
  /-- The host address is not the text of a loopback address. -/
  | remote (h : ∀ address, Address.ofText? c.hostIp = some address → address.isLoopback = false) :
      c.Verdict (.error (.invalid (.hostIp c.hostIp)))
  /-- A deadline is zero. -/
  | zero {address : Address} (hip : Address.ofText? c.hostIp = some address)
      (loopback : address.isLoopback = true) (h : c.callTimeout = 0 ∨ c.execTimeout = 0) :
      c.Verdict (.error (.invalid .zeroTimeout))
  /-- The supervisor cannot be named. -/
  | unnamed {address : Address} (hip : Address.ofText? c.hostIp = some address)
      (loopback : address.isLoopback = true) (call : c.callTimeout ≠ 0) (exec : c.execTimeout ≠ 0)
      (h : c.supervisor.binaryPath = "" ∨ c.supervisor.program = "") :
      c.Verdict (.error (.invalid .emptySupervisor))
  /-- Nothing is wrong. -/
  | accepted {address : Address} (hip : Address.ofText? c.hostIp = some address)
      (loopback : address.isLoopback = true) (call : c.callTimeout ≠ 0) (exec : c.execTimeout ≠ 0)
      (path : c.supervisor.binaryPath ≠ "") (program : c.supervisor.program ≠ "") :
      c.Verdict (.ok c)

/-- Reading was done and the checks are left. -/
def checked (c : Config) : Except PushError Config := do
  c.check.mapError .invalid
  return c

theorem isLocal_eq_true_iff : c.isLocal = true ↔
    ∃ address, Address.ofText? c.hostIp = some address ∧ address.isLoopback = true := by
  rw [isLocal, Option.any_eq_true]

theorem isLocal_eq_false_iff : c.isLocal = false ↔
    ∀ address, Address.ofText? c.hostIp = some address → address.isLoopback = false := by
  rw [← Bool.not_eq_true, isLocal_eq_true_iff]
  simp

theorem verdict_checked (c : Config) : c.Verdict c.checked := by
  unfold checked check
  cases hlocal : c.isLocal with
  | false => exact .remote (isLocal_eq_false_iff.1 hlocal)
  | true =>
    obtain ⟨address, hip, loopback⟩ := isLocal_eq_true_iff.1 hlocal
    by_cases hzero : c.callTimeout = 0 ∨ c.execTimeout = 0
    · simp only [Bool.not_true, Bool.false_eq_true, if_false, if_pos hzero]
      exact .zero hip loopback hzero
    · obtain ⟨call, exec⟩ := not_or.1 hzero
      by_cases hempty : c.supervisor.binaryPath = "" ∨ c.supervisor.program = ""
      · simp only [Bool.not_true, Bool.false_eq_true, if_false, if_neg hzero, if_pos hempty]
        exact .unnamed hip loopback call exec hempty
      · obtain ⟨path, program⟩ := not_or.1 hempty
        simp only [Bool.not_true, Bool.false_eq_true, if_false, if_neg hzero, if_neg hempty]
        exact .accepted hip loopback call exec path program

/-- What is accepted is what was read, and the checks passed. -/
theorem checked_eq_ok {c' : Config} (h : c.checked = .ok c') : c' = c ∧ c.check = .ok () := by
  obtain ⟨_, hcheck, h⟩ := Except.bind_ok_iff.1 h
  exact ⟨(Except.ok.inj h).symm, Except.mapError_ok_iff.1 hcheck⟩

theorem accept_of_check (h : c.check = .ok ()) : c.accept = .ok ⟨c, h⟩ := by
  unfold accept
  split
  · rfl
  · rename_i herror
    cases h.symm.trans herror

section Files

variable {bytes : ByteArray}

theorem load_of_large (h : Conventions.fileSizeLimit < bytes.size) :
    load bytes = .error (.invalid (.configTooLarge bytes.size Conventions.fileSizeLimit)) := if_pos h

theorem load_of_ofYaml (h : bytes.size ≤ Conventions.fileSizeLimit) :
    load bytes = ofYaml bytes >>= checked := if_neg (Nat.not_lt.2 h)

theorem load_of_document (h : bytes.size ≤ Conventions.fileSizeLimit)
    (hbytes : Document.ofBytes bytes = .ok d) :
    load bytes = match d.read? ofNode with
      | some c => c.checked
      | none => .error (.malformed "the document is not a configuration") := by
  rw [load_of_ofYaml h, ofYaml, hbytes]
  dsimp only
  cases d.read? ofNode <;> rfl

/-- A file that gives a configuration is loaded as far as the checks go. -/
theorem load_of_givenIn (h : bytes.size ≤ Conventions.fileSizeLimit)
    (hbytes : Document.ofBytes bytes = .ok d) (record : d.IsRecord d.root entries)
    (once : KnownOnce keys entries) (given : c.GivenIn d entries) : load bytes = c.checked := by
  rw [load_of_document h hbytes, (read?_eq_some_iff hbytes record once).2 given]

/-- A file that gives no configuration is malformed. -/
theorem load_of_not_givenIn (h : bytes.size ≤ Conventions.fileSizeLimit)
    (hbytes : Document.ofBytes bytes = .ok d) (record : d.IsRecord d.root entries)
    (once : KnownOnce keys entries) (none_given : ∀ c : Config, ¬ c.GivenIn d entries) :
    load bytes = .error (.malformed "the document is not a configuration") := by
  have hread : d.read? ofNode = none := Option.eq_none_iff_forall_ne_some.2 fun c hc =>
    none_given c ((read?_eq_some_iff hbytes record once).1 hc)
  rw [load_of_document h hbytes, hread]

end Files

/-- **Loading.** Of a file whose known keys fit exactly one configuration is given, and the checks decide
what becomes of it; a value of the wrong type makes the file malformed. Only what the file gives matters,
which neither the order of keys nor unknown keys change. A file that is too large is not looked at, and
what is loaded may be used for pushes. -/
theorem load_exact (bytes : ByteArray) :
    (Conventions.fileSizeLimit < bytes.size →
      load bytes = .error (.invalid (.configTooLarge bytes.size Conventions.fileSizeLimit))) ∧
    (∀ d entries, bytes.size ≤ Conventions.fileSizeLimit → Document.ofBytes bytes = .ok d →
      d.IsRecord d.root entries → KnownOnce keys entries →
      ((∀ e ∈ entries, Fits d e) →
        ∃ c : Config, (∀ c' : Config, c'.GivenIn d entries ↔ c' = c) ∧ c.Verdict (load bytes)) ∧
      (∀ e ∈ entries, ¬ Fits d e → ∃ reason, load bytes = .error (.malformed reason)) ∧
      (∀ entries', (∀ name ∈ keys, ∀ node, (name, node) ∈ entries' ↔ (name, node) ∈ entries) →
        ∀ c : Config, c.GivenIn d entries' ↔ c.GivenIn d entries) ∧
      (∀ inner inner' : List (String × Node),
        (∀ name ∈ Supervisor.keys, ∀ node, (name, node) ∈ inner' ↔ (name, node) ∈ inner) →
        ∀ s : Supervisor, s.GivenIn d inner' ↔ s.GivenIn d inner) ∧
      ∀ bytes' d' entries', bytes'.size ≤ Conventions.fileSizeLimit →
        Document.ofBytes bytes' = .ok d' → d'.IsRecord d'.root entries' → KnownOnce keys entries' →
        (∀ c : Config, c.GivenIn d' entries' ↔ c.GivenIn d entries) → load bytes' = load bytes) ∧
    ∀ c, load bytes = .ok c → ∃ v, c.accept = .ok v ∧ v.config = c := by
  refine ⟨load_of_large, fun d entries hsize hbytes record once => ⟨?_, ?_, ?_, ?_, ?_⟩, ?_⟩
  · intro fits
    obtain ⟨c, given⟩ := exists_givenIn fits
    refine ⟨c, fun c' => ⟨fun given' => ?_, fun h => h ▸ given⟩, ?_⟩
    · have hread := (read?_eq_some_iff hbytes record once).2 given
      have hread' := (read?_eq_some_iff hbytes record once).2 given'
      exact Option.some.inj (hread'.symm.trans hread)
    · rw [load_of_givenIn hsize hbytes record once given]
      exact verdict_checked c
  · intro e hmem misfit
    exact ⟨_, load_of_not_givenIn hsize hbytes record once fun c given =>
      misfit (fits_of_givenIn given once e hmem)⟩
  · exact fun entries' same c => givenIn_congr same
  · exact fun inner inner' same s => Supervisor.givenIn_congr same
  · intro bytes' d' entries' hsize' hbytes' record' once' same
    by_cases hgiven : ∃ c : Config, c.GivenIn d entries
    · obtain ⟨c, given⟩ := hgiven
      rw [load_of_givenIn hsize hbytes record once given,
        load_of_givenIn hsize' hbytes' record' once' ((same c).2 given)]
    · rw [not_exists] at hgiven
      rw [load_of_not_givenIn hsize hbytes record once hgiven,
        load_of_not_givenIn hsize' hbytes' record' once' fun c given => hgiven c ((same c).1 given)]
  · intro c h
    rcases Nat.lt_or_ge Conventions.fileSizeLimit bytes.size with hsize | hsize
    · rw [load_of_large hsize] at h
      cases h
    · rw [load_of_ofYaml hsize] at h
      obtain ⟨c', -, hchecked⟩ := Except.bind_ok_iff.1 h
      obtain ⟨rfl, hcheck⟩ := checked_eq_ok hchecked
      exact ⟨⟨c, hcheck⟩, accept_of_check hcheck, rfl⟩

-- Keys that are left out keep their defaults on both levels.
example : (load "supervisor:\n  program: app\nhostIp: ::1\n".toUTF8).toOption =
    some { standard with
      hostIp := "::1", supervisor := { Supervisor.standard with program := "app" } } := by
  decide +kernel

end Config

end DevfilePush
