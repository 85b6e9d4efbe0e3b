import DevfilePush.Proofs.Yaml.Extent
import DevfilePush.SortedMap
import DevfilePush.Yaml.Read
import Mathlib.Data.List.Forall2
import Mathlib.Data.List.Nodup

/-!
# What nodes stand for

A reading follows references as long as it may, and may fail for two reasons: a node is not what is
wanted, or no reference is left. The two are told apart here. What a node stands for is laid down without
any reading, as if every reference could be followed; a reading that is allowed enough references then
gives exactly that, and how many are enough is bounded by what is read.

## Main definitions

* `Yaml.Reading.Gives`, `Yaml.Reading.GivesWithin`: what a reading gives, and after how many references.
* `Yaml.Reading.CanGive`: what a reading gives if it is allowed enough references.
* `Yaml.Document.IsText`, `IsOptionalText`, `IsBool`, `IsNatural`: what a scalar stands for.
* `Yaml.Document.IsList`, `Yaml.Document.IsRecord`: the items of a list and the entries of a record.
* `Yaml.Given`: what a record gives for a field, or its default.

## Main statements

* `Yaml.Document.fields_gives`, `Yaml.Document.isRecord_of_fields`: the known fields of a record.
* `Yaml.Document.read?_of_gives`: a document is read if no more references are followed than may be.
-/

namespace DevfilePush.Yaml

variable {α β : Type}

/-! ## Readings -/

namespace Reading

variable {r : Reading α} {f : α → Reading β} {n m : Nat} {a a' : α} {b : β}

/-- The reading follows `n` references and gives `a`; it fails if it may not follow so many. -/
def Gives (r : Reading α) (n : Nat) (a : α) : Prop :=
  ∀ budget, r budget = if n ≤ budget then some (a, budget - n) else none

/-- The reading gives `a` after at most `n` references. -/
def GivesWithin (r : Reading α) (n : Nat) (a : α) : Prop := ∃ k ≤ n, r.Gives k a

/-- The reading gives `a` if it may follow some number of references. -/
def CanGive (r : Reading α) (a : α) : Prop := ∃ budget left, r budget = some (a, left)

theorem bind_apply (r : Reading α) (f : α → Reading β) (budget : Nat) :
    (r >>= f) budget = (r budget).bind fun p => f p.1 p.2 := rfl

theorem gives_pure (a : α) : (pure a : Reading α).Gives 0 a := fun _ => rfl

theorem givesWithin_pure (a : α) (n : Nat) : (pure a : Reading α).GivesWithin n a :=
  ⟨0, Nat.zero_le n, gives_pure a⟩

theorem Gives.bind (hr : r.Gives n a) (hf : (f a).Gives m b) : (r >>= f).Gives (n + m) b := by
  intro budget
  rw [bind_apply, hr budget]
  by_cases hn : n ≤ budget
  · rw [if_pos hn, Option.bind_some, hf (budget - n)]
    by_cases hm : m ≤ budget - n
    · rw [if_pos hm, if_pos (by omega), Nat.sub_sub]
    · rw [if_neg hm, if_neg (by omega)]
  · rw [if_neg hn, if_neg (by omega), Option.bind_none]

theorem GivesWithin.bind (hr : r.GivesWithin n a) (hf : (f a).GivesWithin m b) :
    (r >>= f).GivesWithin (n + m) b := by
  obtain ⟨k, hk, hr⟩ := hr
  obtain ⟨l, hl, hf⟩ := hf
  exact ⟨k + l, Nat.add_le_add hk hl, hr.bind hf⟩

theorem GivesWithin.map (hr : r.GivesWithin n a) (g : α → β) : (g <$> r).GivesWithin n (g a) := by
  rw [map_eq_pure_bind]
  exact hr.bind (m := 0) (givesWithin_pure (g a) 0)

theorem GivesWithin.mono (hr : r.GivesWithin n a) (h : n ≤ m) : r.GivesWithin m a := by
  obtain ⟨k, hk, hr⟩ := hr
  exact ⟨k, Nat.le_trans hk h, hr⟩

/-- What a reading gives does not depend on how many references it may follow. -/
theorem Gives.unique (hr : r.Gives n a) (ha' : r.CanGive a') : a' = a := by
  obtain ⟨budget, left, h⟩ := ha'
  rw [hr budget] at h
  split at h
  · exact (congrArg Prod.fst (Option.some.inj h)).symm
  · cases h

theorem CanGive.bind (h : (r >>= f).CanGive b) : ∃ a, r.CanGive a ∧ (f a).CanGive b := by
  obtain ⟨budget, left, h⟩ := h
  obtain ⟨⟨a, middle⟩, hr, hf⟩ := Option.bind_eq_some_iff.1 h
  exact ⟨a, ⟨budget, middle, hr⟩, ⟨middle, left, hf⟩⟩

theorem CanGive.map {g : α → β} (h : (g <$> r).CanGive b) : ∃ a, r.CanGive a ∧ b = g a := by
  rw [map_eq_pure_bind] at h
  obtain ⟨a, ha, hb⟩ := h.bind
  exact ⟨a, ha, (gives_pure (g a)).unique hb⟩

theorem canGive_pure (h : (pure a : Reading α).CanGive a') : a' = a := (gives_pure a).unique h

/-- A list is read item by item, each within its own number of references. -/
theorem givesWithin_mapM {g : β → Reading α} {cost : β → Nat} {bs : List β} {as : List α}
    (h : List.Forall₂ (fun b a => (g b).GivesWithin (cost b) a) bs as) :
    (bs.mapM g).GivesWithin (bs.map cost).sum as := by
  induction h with
  | nil =>
    rw [List.mapM_nil]
    exact givesWithin_pure [] 0
  | cons hb _ ih =>
    rw [List.mapM_cons, List.map_cons, List.sum_cons]
    exact hb.bind (ih.bind (m := 0) (givesWithin_pure _ 0))

theorem canGive_mapM {g : β → Reading α} {bs : List β} {as : List α} (h : (bs.mapM g).CanGive as) :
    List.Forall₂ (fun b a => (g b).CanGive a) bs as := by
  induction bs generalizing as with
  | nil =>
    rw [List.mapM_nil] at h
    rw [canGive_pure h]
    exact .nil
  | cons b bs ih =>
    rw [List.mapM_cons] at h
    obtain ⟨a, ha, h⟩ := h.bind
    obtain ⟨as', has, h⟩ := h.bind
    rw [canGive_pure h]
    exact .cons ha (ih has)

/-- What does not depend on references is given without any. -/
theorem givesWithin_lift {o : Option α} (h : o = some a) (n : Nat) :
    (liftM o : Reading α).GivesWithin n a := by
  subst h
  exact givesWithin_pure a n

theorem canGive_lift {o : Option α} (h : (liftM o : Reading α).CanGive a) : o = some a := by
  cases o with
  | none =>
    obtain ⟨budget, left, h⟩ := h
    cases h
  | some a' => exact congrArg some (canGive_pure h).symm

theorem not_canGive_failure : ¬ (failure : Reading α).CanGive a := by
  rintro ⟨budget, left, h⟩
  cases h

end Reading

open Reading

/-! ## Scalars -/

/-- The node is no reference. -/
def Node.Direct (node : Node) : Prop := ∀ id, node ≠ .reference id

namespace Document

variable {d : Document} {node : Node}

/-- The node itself, or the one that it refers to. -/
def resolve (d : Document) : Node → Node
  | .reference id => (d.anchors.lookup id).getD .nothing
  | node => node

/-- The node is a scalar with this text. -/
def IsText (d : Document) (node : Node) (text : String) : Prop :=
  ∃ style tag, d.resolve node = .scalar text style tag

/-- The node is a scalar with this text, or says that there is none. -/
def IsOptionalText (d : Document) (node : Node) (text : Option String) : Prop :=
  optionalTextOf? (d.resolve node) = some text

/-- The node is a word for this truth value. -/
def IsBool (d : Document) (node : Node) (b : Bool) : Prop :=
  ∃ word, typedWord? "bool" (d.resolve node) = some word ∧ boolOfWord? word = some b

/-- The node is a word for this number, which is below the bound. -/
def IsNatural (d : Document) (bound : Nat) (node : Node) (n : Nat) : Prop :=
  ∃ word, typedWord? "int" (d.resolve node) = some word ∧ naturalOfWord? bound word = some n

/-- What is no reference stands for itself. -/
theorem resolve_of_direct (h : node.Direct) : d.resolve node = node := by
  cases node with
  | reference id => exact absurd rfl (h id)
  | _ => rfl

theorem IsText.unique {text text' : String} (h : d.IsText node text) (h' : d.IsText node text') :
    text' = text := by
  obtain ⟨style, tag, h⟩ := h
  obtain ⟨style', tag', h'⟩ := h'
  exact (Node.scalar.inj (h'.symm.trans h)).1

theorem digitsBelow?_lt {base bound n : Nat} {cs : List Char}
    (h : Text.digitsBelow? base bound cs = some n) : n < bound := by
  rw [Text.digitsBelow?_eq_filter] at h
  simpa using (Option.filter_eq_some_iff.1 h).2

theorem basedValue?_lt {bound n : Nat} {cs : List Char} (h : basedValue? bound cs = some n) :
    n < bound := by
  unfold basedValue? at h
  split at h
  · exact digitsBelow?_lt h
  · exact digitsBelow?_lt h
  · exact digitsBelow?_lt h
  · cases h

theorem naturalOfWord?_lt {bound n : Nat} {word : String} (h : naturalOfWord? bound word = some n) :
    n < bound := by
  unfold naturalOfWord? at h
  extract_lets cs at h
  split at h
  · rename_i hbased
    exact basedValue?_lt (hbased.trans h)
  · split at h
    · cases h
    · exact digitsBelow?_lt h

theorem IsNatural.lt {bound n : Nat} (h : d.IsNatural bound node n) : n < bound := by
  obtain ⟨word, -, hn⟩ := h
  exact naturalOfWord?_lt hn

theorem deref_gives (d : Document) (node : Node) : (d.deref node).GivesWithin 1 (d.resolve node) := by
  cases node with
  | reference id =>
    refine ⟨1, Nat.le_refl 1, fun budget => ?_⟩
    cases budget <;> rfl
  | _ => exact givesWithin_pure _ 1

theorem deref_canGive {node' : Node} (h : (d.deref node).CanGive node') : node' = d.resolve node := by
  obtain ⟨_, -, hgives⟩ := d.deref_gives node
  exact hgives.unique h

theorem text_gives {text : String} (h : d.IsText node text) : (d.text node).GivesWithin 1 text := by
  obtain ⟨style, tag, h⟩ := h
  refine (d.deref_gives node).bind (m := 0) ?_
  rw [h]
  exact givesWithin_pure text 0

theorem isText_of_text {text : String} (h : (d.text node).CanGive text) : d.IsText node text := by
  obtain ⟨node', hnode, h⟩ := h.bind
  rw [deref_canGive hnode] at h
  split at h
  · exact canGive_pure h ▸ ⟨_, _, ‹_›⟩
  · exact absurd h not_canGive_failure

/-- A reading that only looks at the node gives what it sees. -/
theorem look_gives {f : Node → Option α} {a : α} (h : f (d.resolve node) = some a) :
    (d.deref node >>= fun node => (liftM (f node) : Reading α)).GivesWithin 1 a :=
  (d.deref_gives node).bind (m := 0) (givesWithin_lift h 0)

theorem look_canGive {f : Node → Option α} {a : α}
    (h : (d.deref node >>= fun node => (liftM (f node) : Reading α)).CanGive a) :
    f (d.resolve node) = some a := by
  obtain ⟨node', hnode, h⟩ := h.bind
  rw [deref_canGive hnode] at h
  exact canGive_lift h

theorem optionalText_gives {text : Option String} (h : d.IsOptionalText node text) :
    (d.optionalText node).GivesWithin 1 text := look_gives h

theorem isOptionalText_of_optionalText {text : Option String} (h : (d.optionalText node).CanGive text) :
    d.IsOptionalText node text := look_canGive h

theorem bool_gives {b : Bool} (h : d.IsBool node b) : (d.bool node).GivesWithin 1 b :=
  look_gives (Option.bind_eq_some_iff.2 h)

theorem isBool_of_bool {b : Bool} (h : (d.bool node).CanGive b) : d.IsBool node b :=
  Option.bind_eq_some_iff.1 (look_canGive h)

theorem natural_gives {bound n : Nat} (h : d.IsNatural bound node n) :
    (d.natural bound node).GivesWithin 1 n :=
  look_gives (Option.bind_eq_some_iff.2 h)

theorem isNatural_of_natural {bound n : Nat} (h : (d.natural bound node).CanGive n) :
    d.IsNatural bound node n :=
  Option.bind_eq_some_iff.1 (look_canGive h)

/-! ### Numbers of a fixed width

Such a number is read as a natural number below the bound of its type. -/

section Width

variable {bound : Nat} {ofNat : Nat → α} {toNat : α → Nat} {a : α}

theorem exists_isNatural_toNat (inverse : ∀ n < bound, toNat (ofNat n) = n) {n : Nat}
    (h : d.IsNatural bound node n) : ∃ a, d.IsNatural bound node (toNat a) := by
  refine ⟨ofNat n, ?_⟩
  rw [inverse n h.lt]
  exact h

theorem ofNat_natural_gives (inverse : ∀ a, ofNat (toNat a) = a) (h : d.IsNatural bound node (toNat a)) :
    (ofNat <$> d.natural bound node).GivesWithin 1 a := by
  have hgives := (natural_gives h).map ofNat
  rwa [inverse] at hgives

theorem isNatural_of_ofNat_natural (inverse : ∀ n < bound, toNat (ofNat n) = n)
    (h : (ofNat <$> d.natural bound node).CanGive a) : d.IsNatural bound node (toNat a) := by
  obtain ⟨n, hn, rfl⟩ := h.map
  have hn := isNatural_of_natural hn
  rw [inverse n hn.lt]
  exact hn

end Width

/-! ## Lists and records -/

/-- The node is a list of these items, or a value that was left out and stands for no items. -/
def IsList (d : Document) (node : Node) (items : List Node) : Prop :=
  d.resolve node = .sequence items ∨ isLeftOut (d.resolve node) = true ∧ items = []

/-- The node is a mapping from texts with these entries, or a value that was left out and stands for no
entries. -/
inductive IsRecord (d : Document) (node : Node) : List (String × Node) → Prop
  | mapping {raw : List (Node × Node)} {entries : List (String × Node)}
      (h : d.resolve node = .mapping raw)
      (keys : List.Forall₂ (fun kv e => d.IsText kv.1 e.1 ∧ kv.2 = e.2) raw entries) :
      d.IsRecord node entries
  | leftOut (h : isLeftOut (d.resolve node) = true) : d.IsRecord node []

/-- The entries of the names. -/
def known (names : List String) (entries : List (String × Node)) : List (String × Node) :=
  entries.filter fun e => isKnown names e.1

/-- None of the names comes twice. -/
def KnownOnce (names : List String) (entries : List (String × Node)) : Prop :=
  ((known names entries).map (·.1)).Nodup

/-- Of these fields the same is found for each of the names as in a list of entries. -/
def Shows (fields : List (String × Node)) (names : List String) (entries : List (String × Node)) : Prop :=
  ∀ name ∈ names, ∀ node, fields.lookup name = some node ↔ (name, node) ∈ entries

theorem items_gives {items : List Node} (h : d.IsList node items) :
    (d.items node).GivesWithin 1 items := by
  refine (d.deref_gives node).bind (m := 0) ?_
  rcases h with h | ⟨h, rfl⟩
  · rw [h]
    exact givesWithin_pure items 0
  · split
    · rename_i hsequence
      rw [hsequence] at h
      cases h
    · rw [if_pos h]
      exact givesWithin_pure [] 0

theorem isList_of_items {items : List Node} (h : (d.items node).CanGive items) : d.IsList node items := by
  obtain ⟨node', hnode, h⟩ := h.bind
  rw [deref_canGive hnode] at h
  split at h
  · exact canGive_pure h ▸ .inl ‹_›
  · split at h
    · exact .inr ⟨‹_›, canGive_pure h⟩
    · exact absurd h not_canGive_failure

/-- A node stands for one list. -/
theorem IsList.unique {items items' : List Node} (h : d.IsList node items) (h' : d.IsList node items') :
    items' = items := by
  rcases h with h | ⟨h, rfl⟩
  · rcases h' with h' | ⟨h', rfl⟩
    · exact Node.sequence.inj (h'.symm.trans h)
    · rw [h] at h'
      cases h'
  · rcases h' with h' | ⟨-, rfl⟩
    · rw [h'] at h
      cases h
    · rfl

/-- The items of a list are in the node. -/
theorem IsList.itemsExtent_le {items : List Node} (h : d.IsList node items) :
    itemsExtent items ≤ (d.resolve node).extent := by
  rcases h with h | ⟨h, rfl⟩
  · rw [h]
    exact Nat.le_refl _
  · exact Nat.zero_le _

variable {names : List String} {raw : List (Node × Node)} {entries before : List (String × Node)}

/-- Names differ wherever among the entries one of them stands. -/
theorem nodup_map_middle {first last : List (String × Node)} {e : String × Node} :
    ((first ++ e :: last).map (·.1)).Nodup ↔ ((e :: (first ++ last)).map (·.1)).Nodup := by
  simp only [List.map_append, List.map_cons, List.nodup_middle]

theorem any_name_iff {name : String} :
    before.any (·.1 = name) = true ↔ name ∈ before.map (·.1) := by
  simp

theorem knownEntries_gives (keys : List.Forall₂ (fun kv e => d.IsText kv.1 e.1 ∧ kv.2 = e.2) raw entries)
    (once : ((known names entries ++ before).map (·.1)).Nodup) :
    (d.knownEntries names before raw).GivesWithin raw.length
      ((known names entries).reverse ++ before) := by
  induction keys generalizing before with
  | nil => exact givesWithin_pure before 0
  | @cons kv e raw entries hkey _ ih =>
    obtain ⟨key, value⟩ := kv
    obtain ⟨name, value'⟩ := e
    obtain ⟨hname, rfl⟩ : d.IsText key name ∧ value = value' := hkey
    rw [List.length_cons, Nat.add_comm]
    refine (text_gives hname).bind ?_
    by_cases hknown : isKnown names name = true
    · have hentries : known names ((name, value) :: entries) = (name, value) :: known names entries :=
        List.filter_cons_of_pos hknown
      rw [hentries, List.cons_append, ← nodup_map_middle] at once
      have hnew : ¬ before.any (·.1 = name) = true := by
        rw [any_name_iff]
        exact fun hmem => (List.nodup_cons.1 (List.nodup_append.1 (List.map_append ▸ once)).2.1).1 hmem
      rw [if_pos hknown, if_neg hnew, hentries, List.reverse_cons, List.append_assoc]
      exact ih once
    · have hentries : known names ((name, value) :: entries) = known names entries :=
        List.filter_cons_of_neg hknown
      rw [if_neg hknown, hentries]
      exact ih (hentries ▸ once)

theorem of_knownEntries {fields : List (String × Node)} (once : (before.map (·.1)).Nodup)
    (h : (d.knownEntries names before raw).CanGive fields) :
    ∃ entries, List.Forall₂ (fun kv e => d.IsText kv.1 e.1 ∧ kv.2 = e.2) raw entries ∧
      ((known names entries ++ before).map (·.1)).Nodup ∧
      fields = (known names entries).reverse ++ before := by
  induction raw generalizing before with
  | nil => exact ⟨[], .nil, once, canGive_pure h⟩
  | cons kv raw ih =>
    obtain ⟨name, hname, h⟩ := h.bind
    by_cases hknown : isKnown names name = true
    · rw [if_pos hknown] at h
      split at h
      · exact absurd h not_canGive_failure
      · rename_i hnew
        rw [any_name_iff] at hnew
        have once' : (((name, kv.2) :: before).map (·.1)).Nodup := List.nodup_cons.2 ⟨hnew, once⟩
        obtain ⟨entries, hkeys, honce, rfl⟩ := ih once' h
        have hentries : known names ((name, kv.2) :: entries) = (name, kv.2) :: known names entries :=
          List.filter_cons_of_pos hknown
        refine ⟨(name, kv.2) :: entries, .cons ⟨isText_of_text hname, rfl⟩ hkeys, ?_, ?_⟩
        · rw [hentries, List.cons_append, ← nodup_map_middle]
          exact honce
        · rw [hentries, List.reverse_cons, List.append_assoc]
          rfl
    · rw [if_neg hknown] at h
      obtain ⟨entries, hkeys, honce, rfl⟩ := ih once h
      have hentries : known names ((name, kv.2) :: entries) = known names entries :=
        List.filter_cons_of_neg hknown
      exact ⟨(name, kv.2) :: entries, .cons ⟨isText_of_text hname, rfl⟩ hkeys, hentries ▸ honce,
        by rw [hentries]⟩

theorem mem_known {e : String × Node} : e ∈ known names entries ↔ e ∈ entries ∧ e.1 ∈ names := by
  simp [known, isKnown]

theorem shows_known (once : KnownOnce names entries) :
    Shows (known names entries).reverse names entries := by
  intro name hname node
  have honce : (((known names entries).reverse).map (·.1)).Nodup := by
    rw [List.map_reverse, List.nodup_reverse]
    exact once
  rw [lookup_eq_some_iff_mem honce, List.mem_reverse, mem_known]
  simp [hname]

/-- The known fields of a record are read after one reference for the record and one for each key. -/
theorem fields_gives (record : d.IsRecord node entries) (once : KnownOnce names entries) :
    ∃ fields, Shows fields names entries ∧
      (d.fields names node).GivesWithin (1 + entries.length) fields := by
  refine ⟨(known names entries).reverse, shows_known once, (d.deref_gives node).bind ?_⟩
  cases record with
  | @mapping raw _ h keys =>
    have once' : ((known names entries ++ ([] : List (String × Node))).map (·.1)).Nodup := by
      rw [List.append_nil]
      exact once
    have hgives := knownEntries_gives keys once'
    rw [List.append_nil] at hgives
    rw [h, ← keys.length_eq]
    exact hgives
  | leftOut h =>
    split
    · rename_i hmapping
      rw [hmapping] at h
      cases h
    · rw [if_pos h]
      exact givesWithin_pure [] 0

/-- Where the known fields are read, there is a record of which none of the names comes twice. -/
theorem isRecord_of_fields {fields : List (String × Node)} (h : (d.fields names node).CanGive fields) :
    ∃ entries, d.IsRecord node entries ∧ KnownOnce names entries ∧ Shows fields names entries := by
  obtain ⟨node', hnode, h⟩ := h.bind
  rw [deref_canGive hnode] at h
  split at h
  · have once : (([] : List (String × Node)).map (·.1)).Nodup := List.nodup_nil
    obtain ⟨entries, hkeys, honce, rfl⟩ := of_knownEntries once h
    rw [List.append_nil] at honce ⊢
    exact ⟨entries, .mapping ‹_› hkeys, honce, shows_known honce⟩
  · split at h
    · have once : KnownOnce names [] := List.nodup_nil
      rw [canGive_pure h]
      exact ⟨[], .leftOut ‹_›, once, shows_known once⟩
    · exact absurd h not_canGive_failure

/-- A node stands for one record. -/
theorem IsRecord.unique {entries' : List (String × Node)} (record : d.IsRecord node entries)
    (record' : d.IsRecord node entries') : entries' = entries := by
  cases record with
  | leftOut h =>
    cases record' with
    | leftOut h' => rfl
    | mapping h' keys' =>
      rw [h'] at h
      cases h
  | mapping h keys =>
    cases record' with
    | leftOut h' =>
      rw [h] at h'
      cases h'
    | mapping h' keys' =>
      obtain rfl := Node.mapping.inj (h.symm.trans h')
      refine List.right_unique_forall₂' ?_ keys' keys
      rintro kv e e' ⟨hname, hvalue⟩ ⟨hname', hvalue'⟩
      exact Prod.ext (hname'.unique hname) (hvalue.symm.trans hvalue')

/-- A name that does not come at all does not come twice. -/
theorem knownOnce_of_absent {name : String} (h : ∀ node, (name, node) ∉ entries) :
    KnownOnce [name] entries := by
  have hnone : known [name] entries = [] := by
    refine List.eq_nil_iff_forall_not_mem.2 fun e he => ?_
    obtain ⟨hmem, hname⟩ := mem_known.1 he
    exact h e.2 (List.mem_singleton.1 hname ▸ hmem)
  rw [KnownOnce, hnone]
  exact List.nodup_nil

theorem KnownOnce.unique (once : KnownOnce names entries) {name : String} (known : name ∈ names)
    {node node' : Node} (mem : (name, node) ∈ entries) (mem' : (name, node') ∈ entries) :
    node' = node := by
  have h := (shows_known once name known node).2 mem
  have h' := (shows_known once name known node').2 mem'
  exact Option.some.inj (h'.symm.trans h)

/-- A record has no more entries than items and entries are in the node. -/
theorem IsRecord.length_le (record : d.IsRecord node entries) :
    entries.length ≤ (d.resolve node).extent := by
  cases record with
  | mapping h keys =>
    rw [h, ← keys.length_eq]
    exact length_le_entriesExtent _
  | leftOut h => exact Nat.zero_le _

/-- The value of an entry is no larger than the record. -/
theorem IsRecord.extent_le (record : d.IsRecord node entries) {e : String × Node} (he : e ∈ entries) :
    e.2.extent ≤ (d.resolve node).extent := by
  cases record with
  | mapping h keys =>
    obtain ⟨kv, hkv, -, hsame⟩ := exists_of_forall₂ keys.flip e he
    rw [h, ← hsame]
    exact extent_le_entriesExtent hkv
  | leftOut h => cases he

theorem Measured.root_extent_le (m : d.Measured) : d.root.extent ≤ d.size := by
  rcases m.root with hroot | hroot
  · rw [hroot]
    exact Nat.zero_le _
  · omega

/-- Following a reference does not lead out of what the size of the document covers. -/
theorem Measured.resolve_extent_le (m : d.Measured) (h : node.extent ≤ d.size) :
    (d.resolve node).extent ≤ d.size := by
  cases node with
  | reference id =>
    rw [resolve]
    cases hlookup : d.anchors.lookup id with
    | none => exact Nat.zero_le _
    | some node =>
      obtain ⟨before, after, hsplit, -⟩ := List.lookup_eq_some_iff.1 hlookup
      exact m.anchors (id, node) (hsplit ▸ by simp)
  | _ => exact h

end Document

/-! ## Fields -/

/-- What a record gives for a field: what the entry of this name stands for, or the default where there
is none. -/
inductive Given (entries : List (String × Node)) (name : String) (default : α)
    (stands : Node → α → Prop) : α → Prop
  | present {node : Node} {a : α} (mem : (name, node) ∈ entries) (h : stands node a) :
      Given entries name default stands a
  | absent (h : ∀ node, (name, node) ∉ entries) : Given entries name default stands default

theorem exists_given {entries : List (String × Node)} {name : String} {stands : Node → α → Prop}
    (h : ∀ node, (name, node) ∈ entries → ∃ a, stands node a) (default : α) :
    ∃ a, Given entries name default stands a := by
  by_cases hpresent : ∃ node, (name, node) ∈ entries
  · obtain ⟨node, mem⟩ := hpresent
    obtain ⟨a, ha⟩ := h node mem
    exact ⟨a, .present mem ha⟩
  · exact ⟨default, .absent fun node mem => hpresent ⟨node, mem⟩⟩

section Fields

open Document

variable {fields entries : List (String × Node)} {names : List String} {name : String} {default a : α}
  {stands : Node → α → Prop} {read : Node → Reading α} {n : Nat}

theorem fieldOr_gives (shows : Shows fields names entries) (known : name ∈ names)
    (gives : ∀ node a, (name, node) ∈ entries → stands node a → (read node).GivesWithin n a)
    (given : Given entries name default stands a) :
    (fieldOr fields name default read).GivesWithin n a := by
  unfold fieldOr
  cases given with
  | present mem h =>
    rw [(shows name known _).2 mem]
    exact gives _ _ mem h
  | absent h =>
    have hnone : fields.lookup name = none :=
      Option.eq_none_iff_forall_ne_some.2 fun node hnode => h node ((shows name known node).1 hnode)
    rw [hnone]
    exact givesWithin_pure default n

theorem given_of_fieldOr (shows : Shows fields names entries) (known : name ∈ names)
    (sound : ∀ node a, (read node).CanGive a → stands node a)
    (h : (fieldOr fields name default read).CanGive a) : Given entries name default stands a := by
  unfold fieldOr at h
  split at h
  · exact .present ((shows name known _).1 ‹_›) (sound _ _ h)
  · rename_i hnone
    rw [canGive_pure h]
    refine .absent fun node hmem => ?_
    rw [(shows name known node).2 hmem] at hnone
    cases hnone

/-- What is given for a field is what each entry of its name stands for. -/
theorem Given.exists_stands (given : Given entries name default stands a) (once : KnownOnce names entries)
    (known : name ∈ names) {node : Node} (mem : (name, node) ∈ entries) : ∃ a, stands node a := by
  cases given with
  | present mem' h => exact ⟨_, once.unique known mem mem' ▸ h⟩
  | absent h => exact absurd mem (h node)

/-- A record gives one value for a field. -/
theorem Given.unique {a' : α} (given : Given entries name default stands a)
    (given' : Given entries name default stands a') (once : KnownOnce names entries)
    (known : name ∈ names) (unique : ∀ {node a a'}, stands node a → stands node a' → a' = a) : a' = a := by
  cases given with
  | present mem h =>
    cases given' with
    | present mem' h' =>
      obtain rfl := once.unique known mem mem'
      exact unique h h'
    | absent h' => exact absurd mem (h' _)
  | absent h =>
    cases given' with
    | present mem' h' => exact absurd mem' (h _)
    | absent h' => rfl

theorem Given.congr {entries' : List (String × Node)}
    (same : ∀ node, (name, node) ∈ entries' ↔ (name, node) ∈ entries) :
    Given entries' name default stands a ↔ Given entries name default stands a := by
  constructor
  · rintro (⟨mem, h⟩ | h)
    · exact .present ((same _).1 mem) h
    · exact .absent fun node mem => h node ((same node).2 mem)
  · rintro (⟨mem, h⟩ | h)
    · exact .present ((same _).2 mem) h
    · exact .absent fun node mem => h node ((same node).1 mem)

theorem field_gives (shows : Shows fields names entries) (known : name ∈ names) {node : Node}
    (mem : (name, node) ∈ entries) (gives : (read node).GivesWithin n a) :
    (field fields name read).GivesWithin n a := by
  unfold field
  rw [(shows name known node).2 mem]
  exact gives

theorem exists_of_field (shows : Shows fields names entries) (known : name ∈ names)
    (h : (field fields name read).CanGive a) : ∃ node, (name, node) ∈ entries ∧ (read node).CanGive a := by
  unfold field at h
  split at h
  · exact ⟨_, (shows name known _).1 ‹_›, h⟩
  · exact absurd h not_canGive_failure

end Fields

/-! ## Documents -/

/-- A document is read if no more references have to be followed than may be. -/
theorem Document.read?_of_gives {d : Document} {reading : Document → Node → Reading α} {n : Nat}
    {a : α} (h : (reading d d.root).Gives n a) :
    d.read? reading = if n ≤ referencesPerEvent * d.size then some a else none := by
  rw [read?, h]
  split <;> rfl

theorem Document.read?_of_givesWithin {d : Document} {reading : Document → Node → Reading α} {n : Nat}
    {a : α} (h : (reading d d.root).GivesWithin n a) (enough : n ≤ referencesPerEvent * d.size) :
    d.read? reading = some a := by
  obtain ⟨k, hk, h⟩ := h
  rw [read?_of_gives h, if_pos (Nat.le_trans hk enough)]

/-- Few references for each event, and few besides, are never too many. A stream without documents has
no events, but nothing has to be followed to see that nothing is there. -/
theorem Document.Measured.read?_eq_some {d : Document} (m : d.Measured)
    {reading : Document → Node → Reading α} {k l : Nat} (few : k + l ≤ referencesPerEvent)
    (free : ∃ a, (reading d .nothing).Gives 0 a) {a : α}
    (h : (reading d d.root).GivesWithin (k + l * d.size) a) : d.read? reading = some a := by
  rcases m.root with hroot | hroot
  · obtain ⟨a', hfree⟩ := free
    rw [← hroot] at hfree
    obtain ⟨n, -, h⟩ := h
    obtain rfl := h.unique ⟨0, 0, hfree 0⟩
    rw [read?_of_gives hfree, if_pos (Nat.zero_le _)]
  · refine read?_of_givesWithin h ?_
    calc k + l * d.size ≤ k * d.size + l * d.size :=
          Nat.add_le_add_right (Nat.le_mul_of_pos_right k (by omega)) _
      _ = (k + l) * d.size := (Nat.add_mul k l d.size).symm
      _ ≤ referencesPerEvent * d.size := Nat.mul_le_mul_right _ few

theorem Document.canGive_of_read? {d : Document} {reading : Document → Node → Reading α} {a : α}
    (h : d.read? reading = some a) : (reading d d.root).CanGive a := by
  obtain ⟨⟨a', left⟩, hread, rfl⟩ := Option.map_eq_some_iff.1 h
  exact ⟨_, left, hread⟩

end DevfilePush.Yaml
