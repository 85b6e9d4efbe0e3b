import DevfilePush.Proofs.Yaml.Reading
import DevfilePush.Url.Source
import Mathlib.Algebra.BigOperators.Ring.List
import Mathlib.Algebra.Ring.Nat
import Mathlib.Tactic.MkIffOfInductiveProp

/-!
# The records that a document lists

An environment file lists records of URLs under the settings of the component. What it lists is laid down
here by which entries its mappings have, so nothing else in the document matters. How many references are
followed to read the records is bounded, and by little if no item of the list is a reference.

## Main definitions

* `UrlRecord.IsGivenBy`: the record that a node gives.
* `UrlRecord.Malformed`: what may be wrong with the entries of a record.
* `ListsUrls`: the nodes that a document lists as records.

## Main statements

* `UrlRecord.exists_givenIn_iff`: entries give a record unless something is wrong with them.
* `componentUrls_gives`, `listsUrls_of_componentUrls`: the records that are read are those that are given.
-/

namespace DevfilePush

open Yaml (Document Node Reading Given exists_given field_gives exists_of_field fieldOr fieldOr_gives
  given_of_fieldOr)
open Yaml.Document (KnownOnce)

variable {d : Document} {node : Node}

/-! ## Records -/

/-- The node is the number of a port. -/
def IsPort (d : Document) (node : Node) (port : Port) : Prop := d.IsNatural UInt16.size node port.toNat

theorem exists_isPort {n : Nat} (h : d.IsNatural UInt16.size node n) : ∃ port, IsPort d node port :=
  Document.exists_isNatural_toNat (fun _ => UInt16.toNat_ofNat_of_lt') h

theorem port_gives {port : Port} (h : IsPort d node port) : (portOfNode d node).GivesWithin 1 port :=
  Document.ofNat_natural_gives (fun _ => UInt16.ofNat_toNat) h

theorem isPort_of_port {port : Port} (h : (portOfNode d node).CanGive port) : IsPort d node port :=
  Document.isNatural_of_ofNat_natural (fun _ => UInt16.toNat_ofNat_of_lt') h

namespace UrlRecord

/-- The keys that are known in a record. -/
def keys : List String := ["Name", "Port", "ExposedPort", "Container"]

/-- The record that the entries give. Its name and its port have to be there. -/
@[mk_iff]
structure GivenIn (url : UrlRecord) (d : Document) (entries : List (String × Node)) : Prop where
  name : ∃ node, ("Name", node) ∈ entries ∧ d.IsText node url.name
  port : ∃ node, ("Port", node) ∈ entries ∧ IsPort d node url.port
  exposedPort : Given entries "ExposedPort" 0 (IsPort d) url.exposedPort
  container : Given entries "Container" none d.IsOptionalText url.container

/-- A node is a mapping that gives the record, and none of the known keys comes twice. -/
def IsGivenBy (url : UrlRecord) (d : Document) (node : Node) : Prop :=
  ∃ entries, d.IsRecord node entries ∧ KnownOnce keys entries ∧ url.GivenIn d entries

/-- What may be wrong with the entries of a record. -/
inductive Malformed (d : Document) (entries : List (String × Node)) : Prop
  /-- There is no name or no port. -/
  | missing {key : String} (which : key = "Name" ∨ key = "Port") (h : ∀ node, (key, node) ∉ entries)
  /-- The name is not a text. -/
  | name {node : Node} (mem : ("Name", node) ∈ entries) (h : ∀ text, ¬ d.IsText node text)
  /-- A port is not a number in the range of ports. -/
  | port {key : String} (which : key = "Port" ∨ key = "ExposedPort") {node : Node}
      (mem : (key, node) ∈ entries) (h : ∀ n, ¬ d.IsNatural UInt16.size node n)
  /-- The container is neither a text nor left out. -/
  | container {node : Node} (mem : ("Container", node) ∈ entries)
      (h : ∀ text, ¬ d.IsOptionalText node text)

variable {url : UrlRecord} {entries entries' : List (String × Node)}

/-- Neither the order of entries nor those of unknown keys matter. -/
theorem givenIn_congr
    (same : ∀ name ∈ keys, ∀ node, (name, node) ∈ entries' ↔ (name, node) ∈ entries) :
    url.GivenIn d entries' ↔ url.GivenIn d entries := by
  simp only [givenIn_iff, same "Name" (by decide), same "Port" (by decide),
    Given.congr (same "ExposedPort" (by decide)), Given.congr (same "Container" (by decide))]

/-- Entries give a record unless something is wrong with them. -/
theorem exists_givenIn_iff (once : KnownOnce keys entries) :
    (∃ url : UrlRecord, url.GivenIn d entries) ↔ ¬ Malformed d entries := by
  constructor
  · rintro ⟨url, given⟩ malformed
    obtain ⟨nameNode, nameMem, hname⟩ := given.name
    obtain ⟨portNode, portMem, hport⟩ := given.port
    cases malformed with
    | missing which h =>
      rcases which with rfl | rfl
      · exact h _ nameMem
      · exact h _ portMem
    | name mem h =>
      obtain rfl := once.unique (by decide) mem nameMem
      exact h _ hname
    | port which mem h =>
      rcases which with rfl | rfl
      · obtain rfl := once.unique (by decide) mem portMem
        exact h _ hport
      · obtain ⟨port, hexposed⟩ := given.exposedPort.exists_stands once (by decide) mem
        exact h _ hexposed
    | container mem h =>
      obtain ⟨text, hcontainer⟩ := given.container.exists_stands once (by decide) mem
      exact h _ hcontainer
  · intro wellFormed
    have present : ∀ key, key = "Name" ∨ key = "Port" → ∃ node, (key, node) ∈ entries := by
      intro key which
      by_contra h
      exact wellFormed (.missing which (not_exists.1 h))
    have isPort : ∀ key, key = "Port" ∨ key = "ExposedPort" → ∀ node, (key, node) ∈ entries →
        ∃ port, IsPort d node port := by
      intro key which node mem
      by_contra h
      exact wellFormed (.port which mem fun n hn => h (exists_isPort hn))
    obtain ⟨nameNode, nameMem⟩ := present "Name" (.inl rfl)
    obtain ⟨portNode, portMem⟩ := present "Port" (.inr rfl)
    obtain ⟨name, hname⟩ : ∃ text, d.IsText nameNode text := by
      by_contra h
      exact wellFormed (.name nameMem (not_exists.1 h))
    obtain ⟨port, hport⟩ := isPort "Port" (.inl rfl) portNode portMem
    obtain ⟨exposedPort, hexposed⟩ := exists_given (isPort "ExposedPort" (.inr rfl)) 0
    have isOptionalText : ∀ node, ("Container", node) ∈ entries → ∃ text, d.IsOptionalText node text := by
      intro node mem
      by_contra h
      exact wellFormed (.container mem (not_exists.1 h))
    obtain ⟨container, hcontainer⟩ := exists_given isOptionalText none
    exact ⟨⟨name, port, exposedPort, container⟩, ⟨nameNode, nameMem, hname⟩, ⟨portNode, portMem, hport⟩,
      hexposed, hcontainer⟩

theorem ofNode_gives (given : url.IsGivenBy d node) :
    (ofNode d node).GivesWithin (5 + (d.resolve node).extent) url := by
  obtain ⟨entries, record, once, given⟩ := given
  obtain ⟨fields, shows, hfields⟩ := Document.fields_gives record once
  obtain ⟨nameNode, nameMem, hname⟩ := given.name
  obtain ⟨portNode, portMem, hport⟩ := given.port
  have hname : (Yaml.field fields "Name" d.text).GivesWithin 1 url.name :=
    field_gives shows (by decide) nameMem (Document.text_gives hname)
  have hport : (Yaml.field fields "Port" (portOfNode d)).GivesWithin 1 url.port :=
    field_gives shows (by decide) portMem (port_gives hport)
  have hexposed : (fieldOr fields "ExposedPort" 0 (portOfNode d)).GivesWithin 1 url.exposedPort :=
    fieldOr_gives shows (by decide) (fun _ _ _ => port_gives) given.exposedPort
  have hcontainer : (fieldOr fields "Container" none d.optionalText).GivesWithin 1 url.container :=
    fieldOr_gives shows (by decide) (fun _ _ _ => Document.optionalText_gives) given.container
  have hlength := record.length_le
  have hgives : (ofNode d node).GivesWithin (1 + entries.length + (1 + (1 + (1 + (1 + 0))))) url :=
    hfields.bind <| hname.bind <| hport.bind <| hexposed.bind <| hcontainer.bind <|
      Reading.givesWithin_pure _ 0
  exact hgives.mono (by omega)

theorem isGivenBy_of_ofNode (h : (ofNode d node).CanGive url) : url.IsGivenBy d node := by
  obtain ⟨fields, hfields, h⟩ := h.bind
  obtain ⟨entries, record, once, shows⟩ := Document.isRecord_of_fields hfields
  obtain ⟨name, hname, h⟩ := h.bind
  obtain ⟨port, hport, h⟩ := h.bind
  obtain ⟨exposedPort, hexposed, h⟩ := h.bind
  obtain ⟨container, hcontainer, h⟩ := h.bind
  rw [Reading.canGive_pure h]
  refine ⟨entries, record, once, ?_, ?_, ?_, ?_⟩
  · obtain ⟨node, mem, hname⟩ := exists_of_field shows (by decide) hname
    exact ⟨node, mem, Document.isText_of_text hname⟩
  · obtain ⟨node, mem, hport⟩ := exists_of_field shows (by decide) hport
    exact ⟨node, mem, isPort_of_port hport⟩
  · exact given_of_fieldOr shows (by decide) (fun _ _ => isPort_of_port) hexposed
  · exact given_of_fieldOr shows (by decide) (fun _ _ => Document.isOptionalText_of_optionalText)
      hcontainer

end UrlRecord

/-! ## Lists of records -/

section Lists

variable {α : Type} {name : String} {stands : Node → List α → Prop} {as as' : List α}

/-- The node is a mapping in which the key does not come twice; its value stands for the list, which is
empty where the key is left out. -/
def Under (d : Document) (name : String) (stands : Node → List α → Prop) (node : Node) (as : List α) :
    Prop :=
  ∃ entries, d.IsRecord node entries ∧ KnownOnce [name] entries ∧ Given entries name [] stands as

theorem Under.unique (unique : ∀ {node as as'}, stands node as → stands node as' → as' = as)
    (h : Under d name stands node as) (h' : Under d name stands node as') : as' = as := by
  obtain ⟨entries, record, once, given⟩ := h
  obtain ⟨entries', record', -, given'⟩ := h'
  obtain rfl := record.unique record'
  exact given.unique given' once (List.mem_singleton_self name) unique

/-- What stands under a key item by item. -/
theorem under_forall₂_iff {β : Type} {R : α → β → Prop} {bs : List β} :
    Under d name (fun node bs => ∃ as, stands node as ∧ List.Forall₂ R as bs) node bs ↔
      ∃ as, Under d name stands node as ∧ List.Forall₂ R as bs := by
  constructor
  · rintro ⟨entries, record, once, ⟨mem, as, h, related⟩ | absent⟩
    · exact ⟨as, ⟨entries, record, once, .present mem h⟩, related⟩
    · exact ⟨[], ⟨entries, record, once, .absent absent⟩, .nil⟩
  · rintro ⟨as, ⟨entries, record, once, given⟩, related⟩
    refine ⟨entries, record, once, ?_⟩
    cases given with
    | present mem h => exact .present mem ⟨as, h, related⟩
    | absent absent =>
      obtain rfl := List.forall₂_nil_left_iff.1 related
      exact .absent absent

variable {read : Node → Reading (List α)} {n : Nat}

/-- What is under a key is read after one reference for the mapping and one for each of its keys. -/
theorem under_gives (m : d.Measured) (covered : (d.resolve node).extent ≤ d.size)
    (gives : ∀ node as, (d.resolve node).extent ≤ d.size → stands node as → (read node).GivesWithin n as)
    (h : Under d name stands node as) :
    (d.fields [name] node >>= fun fields => fieldOr fields name [] read).GivesWithin
      (1 + d.size + n) as := by
  obtain ⟨entries, record, once, given⟩ := h
  obtain ⟨fields, shows, hfields⟩ := Document.fields_gives record once
  have hfield : (fieldOr fields name [] read).GivesWithin n as := by
    refine fieldOr_gives shows (List.mem_singleton_self name) (fun node as mem h => ?_) given
    exact gives node as (m.resolve_extent_le (Nat.le_trans (record.extent_le mem) covered)) h
  have hlength := record.length_le
  exact (hfields.bind hfield).mono (by omega)

theorem under_of_read (sound : ∀ node as, (read node).CanGive as → stands node as)
    (h : (d.fields [name] node >>= fun fields => fieldOr fields name [] read).CanGive as) :
    Under d name stands node as := by
  obtain ⟨fields, hfields, h⟩ := h.bind
  obtain ⟨entries, record, once, shows⟩ := Document.isRecord_of_fields hfields
  exact ⟨entries, record, once, given_of_fieldOr shows (List.mem_singleton_self name) sound h⟩

end Lists

/-- The nodes that a document lists as records, in their order. -/
def ListsUrls (d : Document) (nodes : List Node) : Prop :=
  Under d "ComponentSettings" (Under d "Url" d.IsList) d.root nodes

theorem ListsUrls.unique {nodes nodes' : List Node} (h : ListsUrls d nodes) (h' : ListsUrls d nodes') :
    nodes' = nodes := by
  refine Under.unique ?_ h h'
  intro node as as' h h'
  exact Under.unique (fun list list' => list.unique list') h h'

variable {nodes : List Node} {urls : List UrlRecord}

/-- What the listed nodes stand for, one by one, is what stands where they are listed. -/
theorem listsUrls_forall₂_iff {R : Node → UrlRecord → Prop} :
    Under d "ComponentSettings" (Under d "Url" fun node urls =>
        ∃ nodes, d.IsList node nodes ∧ List.Forall₂ R nodes urls) d.root urls ↔
      ∃ nodes, ListsUrls d nodes ∧ List.Forall₂ R nodes urls := by
  have hsettings : (Under d "Url" fun node urls =>
      ∃ nodes, d.IsList node nodes ∧ List.Forall₂ R nodes urls) =
      fun node urls => ∃ nodes, Under d "Url" d.IsList node nodes ∧ List.Forall₂ R nodes urls := by
    funext node urls
    exact propext under_forall₂_iff
  rw [hsettings]
  exact under_forall₂_iff

theorem urlsOfNode_gives (list : d.IsList node nodes)
    (given : List.Forall₂ (fun node url => url.IsGivenBy d node) nodes urls) :
    (urlsOfNode d node).GivesWithin
      (1 + (nodes.map fun node => 5 + (d.resolve node).extent).sum) urls :=
  (Document.items_gives list).bind (Reading.givesWithin_mapM (given.imp fun _ _ => UrlRecord.ofNode_gives))

/-- The items of a list are not larger than what covers the list, nor are the nodes they refer to. -/
theorem urlsOfNode_gives_bounded (m : d.Measured) (covered : (d.resolve node).extent ≤ d.size)
    (list : d.IsList node nodes)
    (given : List.Forall₂ (fun node url => url.IsGivenBy d node) nodes urls) :
    (urlsOfNode d node).GivesWithin (1 + d.size * (5 + d.size)) urls := by
  refine (urlsOfNode_gives list given).mono (Nat.add_le_add_left ?_ 1)
  have hitems := Nat.le_trans list.itemsExtent_le covered
  have hcost : ∀ n ∈ nodes.map fun node => 5 + (d.resolve node).extent, n ≤ 5 + d.size := by
    intro n hn
    obtain ⟨node, hmem, rfl⟩ := List.mem_map.1 hn
    exact Nat.add_le_add_left
      (m.resolve_extent_le (Nat.le_trans (Yaml.extent_le_itemsExtent hmem) hitems)) 5
  calc (nodes.map fun node => 5 + (d.resolve node).extent).sum
      ≤ nodes.length * (5 + d.size) := by
        rw [← List.length_map fun node => 5 + (d.resolve node).extent]
        exact List.sum_le_card_nsmul _ _ hcost
    _ ≤ d.size * (5 + d.size) :=
        Nat.mul_le_mul_right _ (Nat.le_trans (Yaml.length_le_itemsExtent nodes) hitems)

/-- If no item of the list is a reference, the records are read after a few references for each event. -/
theorem urlsOfNode_gives_direct (covered : (d.resolve node).extent ≤ d.size) (list : d.IsList node nodes)
    (direct : ∀ node ∈ nodes, node.Direct)
    (given : List.Forall₂ (fun node url => url.IsGivenBy d node) nodes urls) :
    (urlsOfNode d node).GivesWithin (1 + 5 * d.size) urls := by
  refine (urlsOfNode_gives list given).mono (Nat.add_le_add_left ?_ 1)
  calc (nodes.map fun node => 5 + (d.resolve node).extent).sum
      ≤ (nodes.map fun node => 5 * (1 + node.extent)).sum := by
        refine List.sum_le_sum fun node hmem => ?_
        rw [Document.resolve_of_direct (direct node hmem)]
        omega
    _ = 5 * Yaml.itemsExtent nodes := by
        rw [Yaml.itemsExtent_eq_sum, List.sum_map_mul_left]
    _ ≤ 5 * d.size := Nat.mul_le_mul_left 5 (Nat.le_trans list.itemsExtent_le covered)

/-- The component's URLs are read after one reference for each of the two mappings around the list and
each of their keys, and those for the list. -/
theorem componentUrls_gives {R : Node → UrlRecord → Prop} {n : Nat} (m : d.Measured)
    (gives : ∀ {node nodes urls}, (d.resolve node).extent ≤ d.size → d.IsList node nodes →
      List.Forall₂ R nodes urls → (urlsOfNode d node).GivesWithin n urls)
    (lists : ListsUrls d nodes) (given : List.Forall₂ R nodes urls) :
    (componentUrls d d.root).GivesWithin (2 + n + 2 * d.size) urls := by
  have hlist : ∀ node urls, (d.resolve node).extent ≤ d.size →
      (∃ nodes, d.IsList node nodes ∧ List.Forall₂ R nodes urls) →
      (urlsOfNode d node).GivesWithin n urls := by
    rintro node urls covered ⟨nodes, list, given⟩
    exact gives covered list given
  have hroot := listsUrls_forall₂_iff.2 ⟨nodes, lists, given⟩
  exact (under_gives m (m.resolve_extent_le m.root_extent_le)
    (fun node urls covered h => under_gives m covered hlist h) hroot).mono (by omega)

theorem componentUrls_gives_direct (m : d.Measured) (lists : ListsUrls d nodes)
    (direct : ∀ node ∈ nodes, node.Direct)
    (given : List.Forall₂ (fun node url => url.IsGivenBy d node) nodes urls) :
    (componentUrls d d.root).GivesWithin (3 + 7 * d.size) urls := by
  have hboth := (List.forall₂_and_left (p := fun node : Node => node.Direct) nodes urls).2 ⟨direct, given⟩
  refine (componentUrls_gives (n := 1 + 5 * d.size) m ?_ lists hboth).mono (by omega)
  intro node nodes urls covered list hboth
  obtain ⟨direct, given⟩ := (List.forall₂_and_left _ _).1 hboth
  exact urlsOfNode_gives_direct covered list direct given

/-- Where URLs are read, the document lists nodes that give them. -/
theorem listsUrls_of_componentUrls (h : (componentUrls d d.root).CanGive urls) :
    ∃ nodes, ListsUrls d nodes ∧ List.Forall₂ (fun node url => url.IsGivenBy d node) nodes urls := by
  refine listsUrls_forall₂_iff.1 (under_of_read (fun node urls => under_of_read fun node urls h => ?_) h)
  obtain ⟨nodes, hitems, h⟩ := h.bind
  exact ⟨nodes, Document.isList_of_items hitems,
    (Reading.canGive_mapM h).imp fun _ _ => UrlRecord.isGivenBy_of_ofNode⟩

end DevfilePush
