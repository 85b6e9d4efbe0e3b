/-!
# Finite maps kept in key order

A `SortedMap` is a list of key and value pairs whose keys strictly increase. Labels, storage volumes
and port bindings are such maps, and everything the program shows of them is shown in key order.

## Main definitions

* `SortedMap`: the entries together with the proof that their keys increase.
* `SortedMap.get?`: the view every operation is described through.
* `SortedMap.insert`: adds an entry, replacing an earlier one of the same key.

Two maps with the same `get?` are the same map (`SortedMap.ext_get?`), and the entries of a map give this
map in whatever order they are added (`SortedMap.ofList_of_perm`).
-/

namespace DevfilePush

/-- Where no key comes twice, looking one up finds exactly the entry of that key. -/
theorem lookup_eq_some_iff_mem {κ ν : Type} [BEq κ] [LawfulBEq κ] {entries : List (κ × ν)}
    (nodup : (entries.map (·.1)).Nodup) {k : κ} {v : ν} :
    entries.lookup k = some v ↔ (k, v) ∈ entries := by
  induction entries with
  | nil => simp
  | cons e rest ih =>
    obtain ⟨l, w⟩ := e
    obtain ⟨hnew, hrest⟩ := List.nodup_cons.1 nodup
    rw [List.lookup_cons, List.mem_cons]
    by_cases hk : k = l
    · subst hk
      have habsent : (k, v) ∉ rest := fun hmem => hnew (List.mem_map.2 ⟨_, hmem, rfl⟩)
      simp [habsent, eq_comm]
    · rw [beq_eq_false_iff_ne.2 hk, ih hrest]
      simp [hk]

/-- A finite map from `κ` to `ν`, kept as a list of entries with strictly increasing keys. -/
structure SortedMap (κ : Type) (ν : Type) [LT κ] where
  /-- The entries, in increasing order of their keys. -/
  entries : List (κ × ν)
  /-- Keys strictly increase, so no key occurs twice. -/
  sorted : entries.Pairwise fun a b => a.1 < b.1

namespace SortedMap

variable {κ ν : Type} [LT κ]

instance [DecidableEq κ] [DecidableEq ν] : DecidableEq (SortedMap κ ν) := fun m n =>
  decidable_of_iff (m.entries = n.entries) (by cases m; cases n; simp)

/-- The map without entries. -/
def empty : SortedMap κ ν := ⟨[], .nil⟩

instance : EmptyCollection (SortedMap κ ν) := ⟨empty⟩
instance : Inhabited (SortedMap κ ν) := ⟨empty⟩

@[simp] theorem entries_empty : (∅ : SortedMap κ ν).entries = [] := rfl

/-- The number of entries. -/
def size (m : SortedMap κ ν) : Nat := m.entries.length

/-- Whether there is no entry. -/
def isEmpty (m : SortedMap κ ν) : Bool := m.entries.isEmpty

/-- The keys, in increasing order. -/
def keys (m : SortedMap κ ν) : List κ := m.entries.map (·.1)

/-- The entries that satisfy a test. -/
def filter (m : SortedMap κ ν) (p : κ → ν → Bool) : SortedMap κ ν :=
  ⟨m.entries.filter fun e => p e.1 e.2, m.sorted.filter _⟩

@[simp] theorem mem_entries_filter {m : SortedMap κ ν} {p : κ → ν → Bool} {e : κ × ν} :
    e ∈ (m.filter p).entries ↔ e ∈ m.entries ∧ p e.1 e.2 = true := by
  simp [filter]

/-- Something made of each entry, under the entry's key. -/
def mapValues {ω : Type} (m : SortedMap κ ν) (f : κ → ν → ω) : SortedMap κ ω :=
  ⟨m.entries.map fun e => (e.1, f e.1 e.2), List.pairwise_map.2 m.sorted⟩

@[simp] theorem keys_mapValues {ω : Type} (m : SortedMap κ ν) (f : κ → ν → ω) :
    (m.mapValues f).keys = m.keys := by
  simp [keys, mapValues]

section Lookup

variable [DecidableEq κ]

/-- The value stored under a key. -/
def get? (m : SortedMap κ ν) (k : κ) : Option ν := m.entries.lookup k

/-- Whether a key has a value. -/
def contains (m : SortedMap κ ν) (k : κ) : Bool := (m.get? k).isSome

@[simp] theorem get?_empty (k : κ) : (∅ : SortedMap κ ν).get? k = none := rfl

end Lookup

section Insert

variable [DecidableLT κ] [DecidableEq κ]

/-- Puts an entry in its place, dropping an entry of the same key. -/
def insertEntry (k : κ) (v : ν) : List (κ × ν) → List (κ × ν)
  | [] => [(k, v)]
  | (l, w) :: rest =>
    if k < l then (k, v) :: (l, w) :: rest
    else if k = l then (k, v) :: rest
    else (l, w) :: insertEntry k v rest

theorem mem_insertEntry {k : κ} {v : ν} {e : κ × ν} {entries : List (κ × ν)}
    (h : e ∈ insertEntry k v entries) : e = (k, v) ∨ e ∈ entries := by
  induction entries with
  | nil => simpa [insertEntry] using h
  | cons head rest ih =>
    obtain ⟨l, w⟩ := head
    grind [insertEntry]

theorem lookup_insertEntry (k j : κ) (v : ν) (entries : List (κ × ν)) :
    (insertEntry k v entries).lookup j = if j = k then some v else entries.lookup j := by
  induction entries with
  | nil => grind [insertEntry]
  | cons head rest ih =>
    obtain ⟨l, w⟩ := head
    grind [insertEntry]

/-- An entry under a new key is added to the others, wherever its place is. -/
theorem perm_insertEntry {k : κ} {v : ν} {entries : List (κ × ν)} (h : k ∉ entries.map (·.1)) :
    (insertEntry k v entries).Perm ((k, v) :: entries) := by
  induction entries with
  | nil => exact .refl _
  | cons head rest ih =>
    obtain ⟨l, w⟩ := head
    rw [List.map_cons, List.mem_cons, not_or] at h
    simp only [insertEntry, if_neg h.1]
    split
    · exact .refl _
    · exact ((ih h.2).cons (l, w)).trans (.swap ..)

variable [LE κ] [Std.IsLinearOrder κ] [Std.LawfulOrderLT κ]

theorem sorted_insertEntry (k : κ) (v : ν) {entries : List (κ × ν)}
    (h : entries.Pairwise fun a b => a.1 < b.1) :
    (insertEntry k v entries).Pairwise fun a b => a.1 < b.1 := by
  induction entries with
  | nil => simp [insertEntry]
  | cons head rest ih =>
    obtain ⟨l, w⟩ := head
    have hrest := ih h.of_cons
    have hhead := (List.pairwise_cons.1 h).1
    simp only [insertEntry]
    split
    · refine List.Pairwise.cons ?_ h
      intro e he
      rcases List.mem_cons.1 he with rfl | he
      · assumption
      · exact Std.lt_trans ‹_› (hhead _ he)
    · split
      · subst_vars
        exact List.Pairwise.cons (fun e he => hhead _ he) h.of_cons
      · refine List.Pairwise.cons ?_ hrest
        intro e he
        rcases mem_insertEntry he with rfl | he
        · grind
        · exact hhead _ he

/-- Adds an entry; an earlier entry of the same key is replaced. -/
def insert (m : SortedMap κ ν) (k : κ) (v : ν) : SortedMap κ ν :=
  ⟨insertEntry k v m.entries, sorted_insertEntry k v m.sorted⟩

@[simp] theorem get?_insert (m : SortedMap κ ν) (k j : κ) (v : ν) :
    (m.insert k v).get? j = if j = k then some v else m.get? j :=
  lookup_insertEntry k j v m.entries

@[simp] theorem contains_insert (m : SortedMap κ ν) (k j : κ) (v : ν) :
    (m.insert k v).contains j = (decide (j = k) || m.contains j) := by
  by_cases h : j = k <;> simp [contains, h]

/-- The map of a list of entries; of several with one key the last counts. -/
def ofList (entries : List (κ × ν)) : SortedMap κ ν :=
  entries.foldl (fun m e => m.insert e.1 e.2) ∅

omit [DecidableLT κ] [DecidableEq κ] [Std.IsLinearOrder κ] in
theorem nodup_keys (m : SortedMap κ ν) : m.keys.Nodup := by
  rw [keys, List.Nodup, List.pairwise_map]
  refine m.sorted.imp fun {a b} hlt heq => ?_
  rw [heq] at hlt
  exact Std.lt_irrefl hlt

omit [DecidableLT κ] [Std.IsLinearOrder κ] in
theorem get?_eq_some_iff {m : SortedMap κ ν} {k : κ} {v : ν} :
    m.get? k = some v ↔ (k, v) ∈ m.entries :=
  lookup_eq_some_iff_mem m.nodup_keys

omit [DecidableLT κ] [Std.IsLinearOrder κ] in
theorem mem_keys_iff {m : SortedMap κ ν} {k : κ} : k ∈ m.keys ↔ ∃ v, m.get? k = some v := by
  simp only [keys, List.mem_map, Prod.exists, exists_and_right, exists_eq_right, get?_eq_some_iff]

omit [DecidableLT κ] [Std.IsLinearOrder κ] in
/-- A filtered map holds under each key what the map held, if the test lets it pass. -/
@[simp] theorem get?_filter (m : SortedMap κ ν) (p : κ → ν → Bool) (k : κ) :
    (m.filter p).get? k = (m.get? k).filter (p k) := by
  ext v
  rw [get?_eq_some_iff, mem_entries_filter, Option.filter_eq_some_iff, get?_eq_some_iff]

omit [DecidableLT κ] [Std.IsLinearOrder κ] in
@[simp] theorem get?_mapValues {ω : Type} (m : SortedMap κ ν) (f : κ → ν → ω) (k : κ) :
    (m.mapValues f).get? k = (m.get? k).map (f k) := by
  ext w
  rw [get?_eq_some_iff, Option.map_eq_some_iff]
  simp only [mapValues, List.mem_map, Prod.mk.injEq, Prod.exists, get?_eq_some_iff]
  constructor
  · rintro ⟨_, v, hmem, rfl, rfl⟩
    exact ⟨v, hmem, rfl⟩
  · rintro ⟨v, hmem, rfl⟩
    exact ⟨k, v, hmem, rfl, rfl⟩

omit [DecidableLT κ] [DecidableEq κ] in
/-- Two sorted lists of entries with the same members are equal. -/
theorem entries_ext {a b : List (κ × ν)} (ha : a.Pairwise fun x y => x.1 < y.1)
    (hb : b.Pairwise fun x y => x.1 < y.1) (h : ∀ e, e ∈ a ↔ e ∈ b) : a = b := by
  induction a generalizing b with
  | nil =>
    cases b with
    | nil => rfl
    | cons y b => exact absurd ((h y).2 (by simp)) (by simp)
  | cons x a ih =>
    cases b with
    | nil => exact absurd ((h x).1 (by simp)) (by simp)
    | cons y b =>
      have hx := (List.pairwise_cons.1 ha).1
      have hy := (List.pairwise_cons.1 hb).1
      have hxy : x = y := by
        rcases List.mem_cons.1 ((h x).1 (by simp)) with rfl | hxb
        · rfl
        · rcases List.mem_cons.1 ((h y).2 (by simp)) with rfl | hya
          · rfl
          · exact absurd (Std.lt_trans (hx _ hya) (hy _ hxb)) Std.lt_irrefl
      subst hxy
      congr 1
      refine ih ha.of_cons hb.of_cons fun e => ⟨fun he => ?_, fun he => ?_⟩
      · rcases List.mem_cons.1 ((h e).1 (List.mem_cons_of_mem _ he)) with rfl | heb
        · exact absurd (hx _ he) Std.lt_irrefl
        · exact heb
      · rcases List.mem_cons.1 ((h e).2 (List.mem_cons_of_mem _ he)) with rfl | hea
        · exact absurd (hy _ he) Std.lt_irrefl
        · exact hea

omit [DecidableLT κ] in
/-- A map is determined by what it holds under each key. -/
theorem ext_get? {m n : SortedMap κ ν} (h : ∀ k, m.get? k = n.get? k) : m = n := by
  have : m.entries = n.entries := entries_ext m.sorted n.sorted fun ⟨k, v⟩ => by
    rw [← get?_eq_some_iff, ← get?_eq_some_iff, h k]
  cases m; cases n; simp_all

theorem mapValues_insert {ω : Type} (m : SortedMap κ ν) (f : κ → ν → ω) (k : κ) (v : ν) :
    (m.insert k v).mapValues f = (m.mapValues f).insert k (f k v) := by
  refine ext_get? fun j => ?_
  by_cases hj : j = k <;> simp [hj]

theorem get?_foldl_insert_of_not_mem {entries : List (κ × ν)} {k : κ} (m : SortedMap κ ν)
    (h : k ∉ entries.map (·.1)) :
    (entries.foldl (fun m e => m.insert e.1 e.2) m).get? k = m.get? k := by
  induction entries generalizing m with
  | nil => rfl
  | cons e rest ih =>
    rw [List.map_cons, List.mem_cons, not_or] at h
    rw [List.foldl_cons, ih _ h.2, get?_insert, if_neg h.1]

theorem get?_foldl_insert_of_mem {entries : List (κ × ν)} {k : κ} {v : ν} (m : SortedMap κ ν)
    (nodup : (entries.map (·.1)).Nodup) (h : (k, v) ∈ entries) :
    (entries.foldl (fun m e => m.insert e.1 e.2) m).get? k = some v := by
  induction entries generalizing m with
  | nil => cases h
  | cons e rest ih =>
    obtain ⟨hfirst, hrest⟩ := List.nodup_cons.1 nodup
    rw [List.foldl_cons]
    rcases List.mem_cons.1 h with rfl | hmem
    · rw [get?_foldl_insert_of_not_mem _ hfirst, get?_insert, if_pos rfl]
    · exact ih _ hrest hmem

/-- Entries under new keys that differ from each other are all added, and none gives way. -/
theorem perm_foldl_insert {entries : List (κ × ν)} {m : SortedMap κ ν}
    (nodup : (entries.map (·.1) ++ m.keys).Nodup) :
    (entries.foldl (fun m e => m.insert e.1 e.2) m).entries.Perm (entries ++ m.entries) := by
  induction entries generalizing m with
  | nil => exact .refl _
  | cons e rest ih =>
    obtain ⟨hnew, -⟩ := List.nodup_cons.1 nodup
    have hinsert : (m.insert e.1 e.2).entries.Perm (e :: m.entries) :=
      perm_insertEntry fun hmem => hnew (List.mem_append_right _ hmem)
    have hkeys : (rest.map (·.1) ++ (m.insert e.1 e.2).keys).Perm (e.1 :: (rest.map (·.1) ++ m.keys)) :=
      ((hinsert.map (·.1)).append_left _).trans List.perm_middle
    rw [List.foldl_cons]
    exact (ih (hkeys.nodup_iff.2 nodup)).trans ((hinsert.append_left rest).trans List.perm_middle)

/-- The entries of a map give this map in whatever order they come. -/
theorem ofList_of_perm {entries : List (κ × ν)} {m : SortedMap κ ν} (h : entries.Perm m.entries) :
    ofList entries = m := by
  have hnodup : (entries.map (·.1)).Nodup := (h.map _).nodup_iff.2 m.nodup_keys
  refine ext_get? fun k => ?_
  cases hget : m.get? k with
  | some v => exact get?_foldl_insert_of_mem ∅ hnodup (h.mem_iff.2 (get?_eq_some_iff.1 hget))
  | none =>
    refine get?_foldl_insert_of_not_mem ∅ fun hmem => ?_
    obtain ⟨⟨l, v⟩, hentry, rfl⟩ := List.mem_map.1 hmem
    rw [get?_eq_some_iff.2 (h.mem_iff.1 hentry)] at hget
    cases hget

end Insert

end SortedMap

end DevfilePush
