import DevfilePush.Lock.Registry
import Mathlib.Data.List.Nodup

/-!
# Who is at which lock

A registry finds a lock through the name that it tracks, and forgets names whose lock nobody is at. Told
without locks, all that happens is that parties ask for names and leave: an attendance is the list of
those who asked and have not left. A registry tracks an attendance when everybody in it is at the very
lock that their name still leads to, and arriving and leaving keep it so. Forgetting a name is harmless
because only names that nobody in the attendance asked for are forgotten.

## Main definitions

* `Attendance`: who asked for which name and has not left, in the order of arrival.
* `Attendance.first?`: who has been asking for a name for longest.
* `LockRegistry.Tracks`: a registry stands for an attendance.

## Main statements

* `LockRegistry.Tracks.arrive`, `LockRegistry.Tracks.leave`: both changes keep a registry in step.
* `LockRegistry.Tracks.owns_iff`: the owner of a name's lock is who has been asking for longest.
-/

namespace DevfilePush

/-- Who asked for which name and has not left, in the order of arrival. -/
abbrev Attendance := List (Party × String)

namespace Attendance

/-- The party that has been asking for a name for longest. -/
def first? (who : Attendance) (name : String) : Option Party :=
  (who.find? (·.2 = name)).map (·.1)

/-- Without a party. -/
def without (who : Attendance) (party : Party) : Attendance := who.filter (·.1 ≠ party)

theorem first?_eq_head? (who : Attendance) (name : String) :
    who.first? name = ((who.filter (·.2 = name)).map (·.1)).head? := by
  simp [first?, List.head?_filter]

theorem mem_of_first? {who : Attendance} {name : String} {party : Party}
    (h : who.first? name = some party) : (party, name) ∈ who := by
  obtain ⟨⟨p, n⟩, hfind, rfl⟩ := Option.map_eq_some_iff.1 h
  have hn : n = name := by simpa using List.find?_some hfind
  exact hn ▸ List.mem_of_find?_eq_some hfind

/-- Whoever is first stays first when somebody else arrives. -/
theorem first?_arrive {who : Attendance} {name : String} {first : Party}
    (h : who.first? name = some first) (arrival : Party × String) :
    first? (who ++ [arrival]) name = some first := by
  obtain ⟨a, hfind, rfl⟩ := Option.map_eq_some_iff.1 h
  rw [first?, List.find?_append, hfind]
  rfl

/-- Whoever is first stays first when somebody else leaves. -/
theorem first?_without {who : Attendance} {name : String} {party other : Party}
    (h : who.first? name = some other) (hne : other ≠ party) :
    (who.without party).first? name = some other := by
  induction who with
  | nil => simp [first?] at h
  | cons a who ih =>
    by_cases ha : a.2 = name
    · have hother : a.1 = other := by simpa [first?, ha] using h
      have hkept : a.1 ≠ party := hother ▸ hne
      rw [without, List.filter_cons_of_pos (by simpa using hkept)]
      simp [first?, ha, hother]
    · have hrest : first? who name = some other := by simpa [first?, ha] using h
      by_cases hp : a.1 = party
      · simpa [without, hp] using ih hrest
      · simpa [first?, without, hp, ha] using ih hrest

/-- In an attendance where nobody counts twice, a party asks for one name. -/
theorem name_unique {who : Attendance} (distinct : (who.map (·.1)).Nodup) {party : Party}
    {m n : String} (hm : (party, m) ∈ who) (hn : (party, n) ∈ who) : m = n := by
  have h := List.inj_on_of_nodup_map distinct hm hn rfl
  exact congrArg Prod.snd h

theorem nodup_arrive {who : Attendance} (distinct : (who.map (·.1)).Nodup) {party : Party}
    (absent : ∀ name, (party, name) ∉ who) (name : String) :
    ((who ++ [(party, name)]).map (·.1)).Nodup := by
  rw [List.map_append, List.nodup_append]
  refine ⟨distinct, List.nodup_singleton _, ?_⟩
  intro m hm m' hm'
  obtain ⟨⟨m, other⟩, hmem, rfl⟩ := List.mem_map.1 hm
  rw [List.mem_singleton.1 hm']
  intro h
  obtain rfl : m = party := h
  exact absent other hmem

theorem nodup_without {who : Attendance} (distinct : (who.map (·.1)).Nodup) (party : Party) :
    ((who.without party).map (·.1)).Nodup :=
  distinct.sublist (List.filter_sublist.map _)

end Attendance

namespace LockRegistry

/-- The lock that a name leads to, or the next one to be made. -/
def lock (r : LockRegistry) (name : String) : LockId := (r.locks.get? name).getD r.fresh

/-- A registry stands for an attendance. -/
structure Tracks (r : LockRegistry) (who : Attendance) : Prop where
  /-- The name of everybody who has not left is still tracked. -/
  known : ∀ a ∈ who, r.locks.get? a.2 = some (r.lock a.2)
  /-- Everybody is at the lock that their name leads to. -/
  present : r.present = who.map fun a => (r.lock a.2, a.1)
  /-- Different names lead to different locks. -/
  injective : ∀ {m n : String} {l : LockId}, r.locks.get? m = some l → r.locks.get? n = some l → m = n
  /-- The next lock is a new one. -/
  fresh : ∀ {n : String} {l : LockId}, r.locks.get? n = some l → l < r.fresh

theorem tracks_empty : empty.Tracks [] where
  known := by simp
  present := rfl
  injective := by
    intro m n l h
    simp [empty] at h
  fresh := by
    intro n l h
    simp [empty] at h

@[simp] theorem get?_prune (r : LockRegistry) (name : String) :
    r.prune.locks.get? name = (r.locks.get? name).filter r.inUse := by
  simp [prune]

/-- Arriving where the name is still tracked after pruning. -/
theorem arrive_of_tracked {r : LockRegistry} {name : String} {l : LockId}
    (h : r.prune.locks.get? name = some l) (party : Party) :
    r.arrive name party = { r.prune with present := r.prune.present ++ [(l, party)] } := by
  simp only [arrive, h]

/-- Arriving where the name is not tracked, or was forgotten just now. -/
theorem arrive_of_untracked {r : LockRegistry} {name : String}
    (h : r.prune.locks.get? name = none) (party : Party) :
    r.arrive name party =
      { locks := r.prune.locks.insert name r.prune.fresh
        present := r.prune.present ++ [(r.prune.fresh, party)]
        fresh := r.prune.fresh + 1 } := by
  simp only [arrive, h]

namespace Tracks

variable {r : LockRegistry} {who : Attendance}

/-- The lock of a tracked name is that of those who asked for the name, and of nobody else. -/
theorem lock_eq_iff (t : r.Tracks who) {name : String} {l : LockId} (h : r.locks.get? name = some l)
    {a : Party × String} (ha : a ∈ who) : r.lock a.2 = l ↔ a.2 = name := by
  constructor
  · rintro rfl
    exact t.injective (t.known a ha) h
  · rintro rfl
    exact Option.some.inj ((t.known a ha).symm.trans h)

/-- The queue of a tracked name's lock holds those who asked for the name, in the order of arrival. -/
theorem queue_of_tracked (t : r.Tracks who) {name : String} {l : LockId}
    (h : r.locks.get? name = some l) : r.queue l = (who.filter (·.2 = name)).map (·.1) := by
  have hfilter : who.filter ((fun e : LockId × Party => decide (e.1 = l)) ∘
      fun a => (r.lock a.2, a.1)) = who.filter (·.2 = name) :=
    List.filter_congr fun a ha => by simp [t.lock_eq_iff h ha]
  simp only [queue, t.present, List.filter_map, hfilter, List.map_map]
  rfl

/-- Pruning forgets no name that somebody in the attendance asked for. -/
theorem prune (t : r.Tracks who) : r.prune.Tracks who := by
  have kept : ∀ a ∈ who, r.prune.locks.get? a.2 = some (r.lock a.2) := by
    intro a ha
    have hused : r.inUse (r.lock a.2) = true := by
      rw [inUse, t.present, List.any_map, List.any_eq_true]
      exact ⟨a, ha, by simp⟩
    rw [get?_prune, t.known a ha, Option.filter_some, if_pos hused]
  have same : ∀ a ∈ who, r.prune.lock a.2 = r.lock a.2 := by
    intro a ha
    rw [lock, kept a ha, Option.getD_some]
  refine ⟨?_, ?_, ?_, ?_⟩
  · intro a ha
    rw [kept a ha, same a ha]
  · change r.present = _
    rw [t.present]
    exact List.map_congr_left fun a ha => by rw [same a ha]
  · intro m n l hm hn
    rw [get?_prune, Option.filter_eq_some_iff] at hm hn
    exact t.injective hm.1 hn.1
  · intro n l h
    rw [get?_prune, Option.filter_eq_some_iff] at h
    exact t.fresh h.1

/-- Somebody who arrives comes last in the attendance. -/
theorem arrive (t : r.Tracks who) (name : String) (party : Party) :
    (r.arrive name party).Tracks (who ++ [(party, name)]) := by
  have p := t.prune
  cases hname : r.prune.locks.get? name with
  | some l =>
    have hlock : r.prune.lock name = l := by rw [lock, hname, Option.getD_some]
    rw [arrive_of_tracked hname]
    refine ⟨?_, ?_, fun hm hn => p.injective hm hn, fun h => p.fresh h⟩
    · intro a ha
      rcases List.mem_append.1 ha with ha | ha
      · exact p.known a ha
      · obtain rfl : a = (party, name) := by simpa using ha
        exact hname.trans (congrArg some hlock.symm)
    · change r.prune.present ++ [(l, party)] = _
      rw [p.present, List.map_append, ← hlock]
      rfl
  | none =>
    -- Nobody in the attendance asked for the name, or it would still be tracked.
    have absent : ∀ a ∈ who, a.2 ≠ name := by
      intro a ha heq
      have := p.known a ha
      rw [heq, hname] at this
      exact absurd this (by simp)
    have new : (r.prune.locks.insert name r.prune.fresh).get? name = some r.prune.fresh := by
      simp
    have old : ∀ a ∈ who, (r.prune.locks.insert name r.prune.fresh).get? a.2 =
        some (r.prune.lock a.2) := by
      intro a ha
      rw [SortedMap.get?_insert, if_neg (absent a ha), p.known a ha]
    rw [arrive_of_untracked hname]
    refine ⟨?_, ?_, ?_, ?_⟩
    · intro a ha
      rcases List.mem_append.1 ha with ha | ha
      · simp only [lock, old a ha, Option.getD_some]
      · obtain rfl : a = (party, name) := by simpa using ha
        simp only [lock, new, Option.getD_some]
    · simp only [List.map_append, List.map_cons, List.map_nil, lock, new, Option.getD_some]
      rw [p.present]
      congr 1
      exact List.map_congr_left fun a ha => by simp only [old a ha, Option.getD_some]
    · intro m n l hm hn
      simp only [SortedMap.get?_insert] at hm hn
      split at hm <;> split at hn
      · subst_vars; rfl
      · obtain rfl := Option.some.inj hm
        exact absurd (p.fresh hn) (Nat.lt_irrefl _)
      · obtain rfl := Option.some.inj hn
        exact absurd (p.fresh hm) (Nat.lt_irrefl _)
      · exact p.injective hm hn
    · intro n l h
      simp only [SortedMap.get?_insert] at h
      split at h
      · exact Option.some.inj h ▸ Nat.lt_succ_self _
      · exact Nat.lt_succ_of_lt (p.fresh h)

/-- Somebody who leaves is taken out of the attendance. -/
theorem leave (t : r.Tracks who) (party : Party) : (r.leave party).Tracks (who.without party) where
  known := fun a ha => t.known a (List.mem_of_mem_filter ha)
  present := by
    simp only [LockRegistry.leave, t.present, List.filter_map]
    rfl
  injective := t.injective
  fresh := t.fresh

/-- The party that owns a lock is the one that has been asking for the lock's name for longest. -/
theorem owns_iff (t : r.Tracks who) (distinct : (who.map (·.1)).Nodup) {party : Party} :
    r.owns party = true ↔ ∃ name, who.first? name = some party := by
  have hlockOf : ∀ a ∈ who, r.lockOf? a.1 = some (r.lock a.2) := by
    intro a ha
    have hfind : who.find? (fun b => decide (b.1 = a.1)) = some a := by
      obtain ⟨b, hb⟩ : ∃ b, who.find? (fun b => decide (b.1 = a.1)) = some b :=
        Option.isSome_iff_exists.1 (List.find?_isSome.2 ⟨a, ha, by simp⟩)
      have heq : b = a := List.inj_on_of_nodup_map distinct (List.mem_of_find?_eq_some hb) ha
        (by simpa using List.find?_some hb)
      rw [hb, heq]
    have hcomp : ((fun e : LockId × Party => decide (e.2 = a.1)) ∘ fun b : Party × String =>
        (r.lock b.2, b.1)) = fun b => decide (b.1 = a.1) := rfl
    simp only [lockOf?, t.present, List.find?_map, hcomp, hfind, Option.map_some]
  have howner : ∀ a ∈ who, r.owner? (r.lock a.2) = who.first? a.2 := by
    intro a ha
    rw [owner?, t.queue_of_tracked (t.known a ha), Attendance.first?_eq_head?]
  constructor
  · intro h
    obtain ⟨l, hl, hown⟩ := (Option.any_eq_true _ _).1 h
    obtain ⟨e, hfind, -⟩ := Option.map_eq_some_iff.1 hl
    have hmem := List.mem_of_find?_eq_some hfind
    have hparty : e.2 = party := by simpa using List.find?_some hfind
    rw [t.present] at hmem
    obtain ⟨a, ha, rfl⟩ := List.mem_map.1 hmem
    obtain rfl : a.1 = party := hparty
    rw [hlockOf a ha, Option.some.injEq] at hl
    rw [← hl, howner a ha, decide_eq_true_eq] at hown
    exact ⟨a.2, hown⟩
  · rintro ⟨name, hfirst⟩
    have hmem := Attendance.mem_of_first? hfirst
    rw [owns, hlockOf _ hmem, Option.any_some, howner _ hmem, hfirst]
    simp

end Tracks

end LockRegistry

end DevfilePush
