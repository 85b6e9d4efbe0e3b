import DevfilePush.Json.Codec
import Mathlib.Data.List.Forall2
import Mathlib.Data.List.Nodup

/-!
# The documents of a value

A value is written as one JSON document and is read from many. Which documents stand for a value is said
here without regard to how they are read: a record may be an object with its members in any order, with
members of other names among them, or the array of its fields, and a field that has a default may be left
out where it has this default; the fields of a record, the items of a list and the components of a pair
are again any documents of what they hold.

## Main definitions

* `HasDocuments`: the documents of a value.
* `Field`, `RecordDocument`: the documents of a record with given fields.
* `Faithful`: a value is read from all its documents, and written as one of them.

## Main statements

* `RecordDocument.read`: a record is read where its fields are.
* `Members.document`: an object that has the members for all fields in order.
-/

namespace DevfilePush

/-- A type of which it is said what the documents of its values are. -/
class HasDocuments (α : Type) where
  /-- Whether a document stands for a value. -/
  IsDocument : α → Json → Prop

export HasDocuments (IsDocument)

/-- A value is read from each of its documents, and what is written of it is one of them. -/
class Faithful (α : Type) [JsonForm α] [HasDocuments α] : Prop where
  written (v : α) : IsDocument v (toJson v)
  read {v : α} {j : Json} : IsDocument v j → ofJson? j = some v

/-! ## Plain values

A text, a truth value and a number have one document each. -/

instance : HasDocuments String := ⟨fun s j => j = .text s⟩
instance : HasDocuments Bool := ⟨fun b j => j = .bool b⟩
instance : HasDocuments UInt16 := ⟨fun n j => j = .nat n.toNat⟩
instance : HasDocuments UInt64 := ⟨fun n j => j = .nat n.toNat⟩

theorem Json.asNatBelow?_nat {bound n : Nat} (h : n < bound) :
    (Json.nat n).asNatBelow? bound = some n := by
  simp [asNatBelow?, asInt?, nat, h]

instance : Faithful String := ⟨fun _ => rfl, by rintro s _ rfl; rfl⟩
instance : Faithful Bool := ⟨fun _ => rfl, by rintro b _ rfl; rfl⟩

instance : Faithful UInt16 where
  written _ := rfl
  read := by
    rintro n _ rfl
    change ((Json.nat n.toNat).asNatBelow? UInt16.size).map UInt16.ofNat = some n
    simp [Json.asNatBelow?_nat n.toNat_lt]

instance : Faithful UInt64 where
  written _ := rfl
  read := by
    rintro n _ rfl
    change ((Json.nat n.toNat).asNatBelow? UInt64.size).map UInt64.ofNat = some n
    simp [Json.asNatBelow?_nat n.toNat_lt]

section

variable {α β : Type} [HasDocuments α] [HasDocuments β]

/-- A list is an array of documents of its items. -/
instance : HasDocuments (List α) :=
  ⟨fun items j => ∃ js, j = .array js ∧ List.Forall₂ IsDocument items js⟩

/-- The lack of a value is null. -/
instance : HasDocuments (Option α) where
  IsDocument
    | none, j => j = .null
    | some v, j => IsDocument v j

/-- A pair is an array of two. -/
instance : HasDocuments (α × β) :=
  ⟨fun pair j => ∃ a b, j = .array [a, b] ∧ IsDocument pair.1 a ∧ IsDocument pair.2 b⟩

/-- A map is an object of its entries in any order. -/
instance : HasDocuments (SortedMap String String) :=
  ⟨fun m j => ∃ entries : List (String × String), entries.Perm m.entries ∧
    j = .record (entries.map fun e => (e.1, .text e.2))⟩

variable [JsonForm α] [JsonForm β] [Faithful α] [Faithful β]

instance : Faithful (List α) where
  written items := by
    refine ⟨items.map toJson, rfl, ?_⟩
    rw [List.forall₂_map_right_iff, List.forall₂_same]
    exact fun v _ => Faithful.written v
  read := by
    rintro items _ ⟨js, rfl, h⟩
    change js.mapM ofJson? = some items
    induction h with
    | nil => rfl
    | cons hfirst _ ih => rw [List.mapM_cons, Faithful.read hfirst, ih]; rfl

/-- Where null is not read as a value it can stand for the lack of one. -/
theorem faithful_option (notNull : (ofJson? .null : Option α) = none) : Faithful (Option α) where
  written
    | none => rfl
    | some v => Faithful.written v
  read := by
    rintro (_ | v) j h
    · obtain rfl : j = .null := h
      rfl
    · have hread : (ofJson? j : Option α) = some v := Faithful.read h
      have hne : j ≠ .null := by
        rintro rfl
        rw [notNull] at hread
        cases hread
      change Json.asOption? ofJson? j = some (some v)
      cases j <;> first | exact absurd rfl hne | simp [Json.asOption?, hread]

instance : Faithful (Option String) := faithful_option rfl
instance : Faithful (Option Bool) := faithful_option rfl

instance : Faithful (α × β) where
  written pair := ⟨_, _, rfl, Faithful.written pair.1, Faithful.written pair.2⟩
  read := by
    rintro pair _ ⟨a, b, rfl, ha, hb⟩
    change (do return (← ofJson? a, ← ofJson? b)) = some pair
    rw [Faithful.read ha, Faithful.read hb]
    rfl

end

theorem Json.asEntries?_map (entries : List (String × String)) :
    asEntries? Json.asText? (entries.map fun e => (some e.1, .text e.2)) = some entries := by
  induction entries with
  | nil => rfl
  | cons e rest ih => rw [List.map_cons, asEntries?, ih]; rfl

instance : Faithful (SortedMap String String) where
  written m := ⟨m.entries, .refl _, rfl⟩
  read := by
    rintro m _ ⟨entries, horder, rfl⟩
    have hentries := Json.asEntries?_map entries
    change (Json.asEntries? _ (List.map _ (entries.map _))).map SortedMap.ofList = some m
    rw [List.map_map]
    exact (congrArg _ hentries).trans (congrArg some (SortedMap.ofList_of_perm horder))

/-! ## Records -/

/-- A field of a record that holds a certain value. -/
structure Field where
  name : String
  /-- The documents of the value. -/
  Holds : Json → Prop
  /-- Whether the field may be left out. -/
  Omittable : Prop

namespace Field

variable {α : Type} [HasDocuments α]

/-- A field that has to be there. -/
def required (name : String) (v : α) : Field := ⟨name, IsDocument v, False⟩

/-- A field that may be left out where it holds its default. -/
def defaulted (name : String) (v default : α) : Field := ⟨name, IsDocument v, v = default⟩

end Field

/-- The members of an object for the fields of a record, in the order of the fields. -/
inductive Members : List Field → List (String × Json) → Prop where
  | nil : Members [] []
  | written {field : Field} {fields : List Field} {j : Json} {members : List (String × Json)} :
      field.Holds j → Members fields members → Members (field :: fields) ((field.name, j) :: members)
  | omitted {field : Field} {fields : List Field} {members : List (String × Json)} :
      field.Omittable → Members fields members → Members (field :: fields) members

/-- The items of an array for the fields of a record; it may end before fields that may be left out. -/
inductive Items : List Field → List Json → Prop where
  | ended {fields : List Field} : (∀ field ∈ fields, field.Omittable) → Items fields []
  | written {field : Field} {fields : List Field} {j : Json} {items : List Json} :
      field.Holds j → Items fields items → Items (field :: fields) (j :: items)

/-- The documents of a record that has these fields. -/
inductive RecordDocument (fields : List Field) : Json → Prop where
  /-- An object, with its members and unknown ones in any order. -/
  | object {known unknown members : List (String × Json)} (holds : Members fields known)
      (others : ∀ m ∈ unknown, m.1 ∉ fields.map (·.name)) (order : members.Perm (known ++ unknown)) :
      RecordDocument fields (.record members)
  /-- The array of the fields in order. -/
  | array {items : List Json} (holds : Items fields items) : RecordDocument fields (.array items)

/-- A member for each field and no other is a document of the record. -/
theorem Members.document {fields : List Field} {members : List (String × Json)}
    (h : Members fields members) : RecordDocument fields (.record members) :=
  .object h (List.forall_mem_nil _) (.of_eq (List.append_nil members).symm)

/-! ## Looking members up -/

theorem lookup_eq_none {members : List (String × Json)} {name : String}
    (h : name ∉ members.map (·.1)) : members.lookup name = none := by
  rw [List.lookup_eq_none_iff]
  intro m hm
  have hne : name ≠ m.1 := fun heq => h (List.mem_map.2 ⟨m, hm, heq.symm⟩)
  simpa using hne

/-- A field is found among members, or it may be left out and is not found. -/
def Field.StandsIn (field : Field) (members : List (String × Json)) : Prop :=
  (∃ j, members.lookup field.name = some j ∧ field.Holds j) ∨
    (members.lookup field.name = none ∧ field.Omittable)

namespace Members

variable {fields : List Field} {known members : List (String × Json)}

theorem names_sublist (h : Members fields known) :
    (known.map (·.1)).Sublist (fields.map (·.name)) := by
  induction h with
  | nil => exact .slnil
  | written _ _ ih => exact ih.cons_cons _
  | omitted _ _ ih => exact ih.cons _

/-- Each field has its member or may be left out. -/
theorem mem_or_omittable (h : Members fields known) (nodup : (fields.map (·.name)).Nodup)
    {field : Field} (hfield : field ∈ fields) :
    (∃ j, (field.name, j) ∈ known ∧ field.Holds j) ∨
      (field.name ∉ known.map (·.1) ∧ field.Omittable) := by
  induction h with
  | nil => cases hfield
  | @written first rest j members hholds hrest ih =>
    obtain ⟨hfirst, hnodup⟩ := List.nodup_cons.1 nodup
    rcases List.mem_cons.1 hfield with rfl | hmem
    · exact .inl ⟨j, List.mem_cons_self, hholds⟩
    rcases ih hnodup hmem with ⟨j', hj', hholds'⟩ | ⟨hnot, homit⟩
    · exact .inl ⟨j', List.mem_cons_of_mem _ hj', hholds'⟩
    · have hne : field.name ≠ first.name := fun heq => hfirst (List.mem_map.2 ⟨field, hmem, heq⟩)
      exact .inr ⟨fun hin => (List.mem_cons.1 hin).elim hne hnot, homit⟩
  | @omitted first rest members homit hrest ih =>
    obtain ⟨hfirst, hnodup⟩ := List.nodup_cons.1 nodup
    rcases List.mem_cons.1 hfield with rfl | hmem
    · exact .inr ⟨fun hin => hfirst (hrest.names_sublist.subset hin), homit⟩
    · exact ih hnodup hmem

/-- In whatever order the members are, each field stands in them. -/
theorem standsIn (h : Members fields known) (nodup : (fields.map (·.name)).Nodup)
    (order : members.Perm known) {field : Field} (hfield : field ∈ fields) :
    field.StandsIn members := by
  have hnodup : (members.map (·.1)).Nodup :=
    (order.map _).nodup_iff.2 (nodup.sublist h.names_sublist)
  rcases h.mem_or_omittable nodup hfield with ⟨j, hj, hholds⟩ | ⟨hnot, homit⟩
  · exact .inl ⟨j, (lookup_eq_some_iff_mem hnodup).2 (order.mem_iff.2 hj), hholds⟩
  · exact .inr ⟨lookup_eq_none fun hin => hnot ((order.map _).mem_iff.1 hin), homit⟩

end Members

/-! ## Reading records -/

/-- Members of known names are kept and others dropped. No known name may come twice, whereas unknown
ones may. -/
theorem Fields.ofMembers?_eq {names : List String} {members : List (String × Json)}
    (nodup : ((members.filter (·.1 ∈ names)).map (·.1)).Nodup) :
    ofMembers? names (members.map fun m => (some m.1, m.2)) =
      some (members.filter (·.1 ∈ names)) := by
  induction members with
  | nil => rfl
  | cons m rest ih =>
    rw [List.map_cons, ofMembers?]
    by_cases hknown : m.1 ∈ names
    · rw [List.filter_cons_of_pos (by simpa using hknown)] at nodup ⊢
      obtain ⟨hfirst, hrest⟩ := List.nodup_cons.1 nodup
      have honce : (rest.filter (·.1 ∈ names)).any (·.1 = m.1) = false := by
        rw [List.any_eq_false]
        intro other hother heq
        exact hfirst (List.mem_map.2 ⟨other, hother, of_decide_eq_true heq⟩)
      simp [ih hrest, hknown, honce]
    · rw [List.filter_cons_of_neg (by simpa using hknown)] at nodup ⊢
      simp [ih nodup, hknown]

/-- The members that an array of fields amounts to. -/
theorem Items.members {fields : List Field} {items : List Json} (h : Items fields items) :
    Members fields ((fields.map (·.name)).zip items) := by
  induction h with
  | @ended fields homit =>
    rw [List.zip_nil_right]
    induction fields with
    | nil => exact .nil
    | cons field rest ih =>
      rw [List.forall_mem_cons] at homit
      exact .omitted homit.1 (ih homit.2)
  | written hholds _ ih => exact .written hholds ih

theorem Items.length_le {fields : List Field} {items : List Json} (h : Items fields items) :
    items.length ≤ fields.length := by
  induction h with
  | ended => exact Nat.zero_le _
  | written _ _ ih => exact Nat.succ_le_succ ih

namespace RecordDocument

variable {fields : List Field} {names : List String} {j : Json}

/-- All fields of a record stand in what is read of its document. -/
theorem ofJson? (h : RecordDocument fields j) (nodup : (fields.map (·.name)).Nodup) :
    ∃ f, Fields.ofJson? (fields.map (·.name)) j = some f ∧
      ∀ field ∈ fields, field.StandsIn f.members := by
  cases h with
  | @object known unknown members hholds hothers horder =>
    have hknown : known.filter (·.1 ∈ fields.map (·.name)) = known :=
      List.filter_eq_self.2 fun m hm =>
        decide_eq_true (hholds.names_sublist.subset (List.mem_map_of_mem hm))
    have hunknown : unknown.filter (·.1 ∈ fields.map (·.name)) = [] :=
      List.filter_eq_nil_iff.2 fun m hm => by simpa using hothers m hm
    have hkept : (members.filter (·.1 ∈ fields.map (·.name))).Perm known := by
      have hfilter := horder.filter (·.1 ∈ fields.map (·.name))
      rwa [List.filter_append, hknown, hunknown, List.append_nil] at hfilter
    have hnodup : ((members.filter (·.1 ∈ fields.map (·.name))).map (·.1)).Nodup :=
      (hkept.map _).nodup_iff.2 (nodup.sublist hholds.names_sublist)
    refine ⟨⟨members.filter (·.1 ∈ fields.map (·.name))⟩, ?_, fun field hfield =>
      hholds.standsIn nodup hkept hfield⟩
    rw [Json.record, Fields.ofJson?, Fields.ofMembers?_eq hnodup]
    rfl
  | @array items hholds =>
    refine ⟨⟨(fields.map (·.name)).zip items⟩, ?_, fun field hfield =>
      hholds.members.standsIn nodup (.refl _) hfield⟩
    rw [Fields.ofJson?, List.length_map, if_pos hholds.length_le]

/-- A record is read from its document by what reads its fields where they stand. -/
theorem read {α : Type} {v : α} {build : Fields → Option α} (h : RecordDocument fields j)
    (names_eq : fields.map (·.name) = names) (nodup : names.Nodup)
    (builds : ∀ f : Fields, fields.Forall (·.StandsIn f.members) → build f = some v) :
    (Fields.ofJson? names j).bind build = some v := by
  subst names_eq
  obtain ⟨f, hf, hstands⟩ := h.ofJson? nodup
  rw [hf]
  exact builds f (List.forall_iff_forall_mem.2 hstands)

end RecordDocument

section

variable {α : Type} [JsonForm α] [HasDocuments α] [Faithful α] {f : Fields} {name : String}
  {v default : α} {fields : List Field} {members : List (String × Json)}

theorem Members.required (h : Members fields members) :
    Members (.required name v :: fields) ((name, toJson v) :: members) :=
  .written (Faithful.written v) h

theorem Members.defaulted (h : Members fields members) :
    Members (.defaulted name v default :: fields) ((name, toJson v) :: members) :=
  .written (Faithful.written v) h

theorem Fields.required_eq (h : (Field.required name v).StandsIn f.members) :
    f.required name = some v := by
  rcases h with ⟨j, hj, hholds⟩ | ⟨-, homit⟩
  · have hlookup : f.members.lookup name = some j := hj
    rw [required, hlookup]
    exact Faithful.read hholds
  · exact homit.elim

theorem Fields.orElse_eq (h : (Field.defaulted name v default).StandsIn f.members) :
    f.orElse name default = some v := by
  rcases h with ⟨j, hj, hholds⟩ | ⟨hnone, homit⟩
  · have hlookup : f.members.lookup name = some j := hj
    rw [orElse, hlookup]
    exact Faithful.read hholds
  · have hlookup : f.members.lookup name = none := hnone
    have hdefault : v = default := homit
    rw [orElse, hlookup, hdefault]

end

end DevfilePush
