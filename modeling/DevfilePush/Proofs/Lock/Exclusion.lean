import DevfilePush.Proofs.Lock.Attendance

/-!
# Locks exclude and hand over

Those who use a registry start acquiring a lock, poll to see whether they have got it, and quit: they
release the lock that they hold, or give an acquire up, whether it still waits or the lock was already
handed to it. Whatever they do, a name's lock is owned by the earliest acquire of that name that has not
quit, and by no other.

## Main definitions

* `Acquire`, `LockUse`: the acquires under way, next to the registry that they use.
* `LockStep`, `LockUse.step`: what users can do.
* `LockUse.Owns`: who owns a lock, knowing it or not.

## Main statements

* `LockUse.Consistent.step`: every step keeps the registry in step with the acquires.
* `LockUse.owner_is_earliest`: exclusion, no stranded waiter, first polls and the order of hand-over.
-/

namespace DevfilePush

/-- An acquire that was polled at least once and has not quit. -/
structure Acquire where
  /-- Its number in the order of first polls. -/
  party : Party
  name : String
  /-- Whether a poll has told it that the lock is its own, so that it holds the lock's guard. -/
  held : Bool
  deriving DecidableEq, Repr

/-- One thing that users of a registry do. -/
inductive LockStep where
  /-- Somebody starts acquiring a name's lock and polls for the first time. -/
  | acquire (name : String)
  /-- An acquire is polled again. -/
  | poll (party : Party)
  /-- A guard is released, or an acquire that has no guard is dropped. -/
  | quit (party : Party)
  deriving DecidableEq, Repr

/-- A registry and the acquires that use it, in the order of their first polls. -/
structure LockUse where
  registry : LockRegistry
  acquires : List Acquire
  /-- The number of the next acquire. -/
  fresh : Party

namespace LockUse

/-- A registry that nobody has used yet. -/
def start : LockUse := ⟨.empty, [], 0⟩

/-- What a step does. -/
def step (u : LockUse) : LockStep → LockUse
  | .acquire name =>
    let registry := u.registry.arrive name u.fresh
    ⟨registry, u.acquires ++ [⟨u.fresh, name, registry.owns u.fresh⟩], u.fresh + 1⟩
  | .poll party =>
    { u with acquires := u.acquires.map fun a =>
        if a.party = party then { a with held := a.held || u.registry.owns party } else a }
  | .quit party =>
    { u with
      registry := u.registry.leave party
      acquires := u.acquires.filter (·.party ≠ party) }

/-- What steps do one after another. -/
def steps (u : LockUse) (l : List LockStep) : LockUse := l.foldl step u

/-- An acquire owns its name's lock: it holds the guard, or the lock was handed to it and it has not
been polled since. -/
def Owns (u : LockUse) (a : Acquire) : Prop :=
  a ∈ u.acquires ∧ (a.held = true ∨ u.registry.owns a.party = true)

/-- The acquires as an attendance. -/
def attendance (u : LockUse) : Attendance := u.acquires.map fun a => (a.party, a.name)

/-- The registry is in step with the acquires. -/
structure Consistent (u : LockUse) : Prop where
  tracks : u.registry.Tracks u.attendance
  /-- Acquires stand in the order of their first polls. -/
  increasing : u.acquires.Pairwise (·.party < ·.party)
  below : ∀ a ∈ u.acquires, a.party < u.fresh
  /-- Whoever holds a guard still owns the lock. -/
  held : ∀ a ∈ u.acquires, a.held = true → u.registry.owns a.party = true

theorem consistent_start : start.Consistent where
  tracks := LockRegistry.tracks_empty
  increasing := .nil
  below := by simp [start]
  held := by simp [start]

theorem map_attendance (u : LockUse) : u.attendance.map (·.1) = u.acquires.map (·.party) := by
  rw [attendance, List.map_map]
  rfl

/-- Somebody who starts acquiring comes last. -/
@[simp] theorem attendance_acquire (u : LockUse) (name : String) :
    (u.step (.acquire name)).attendance = u.attendance ++ [(u.fresh, name)] := by
  simp [step, attendance]

/-- A poll changes nothing about who acquires what. -/
@[simp] theorem attendance_poll (u : LockUse) (party : Party) :
    (u.step (.poll party)).attendance = u.attendance := by
  simp only [step, attendance, List.map_map]
  refine List.map_congr_left fun a _ => ?_
  simp only [Function.comp_apply]
  split <;> rfl

@[simp] theorem attendance_quit (u : LockUse) (party : Party) :
    (u.step (.quit party)).attendance = u.attendance.without party := by
  simp only [step, attendance, Attendance.without, List.filter_map]
  rfl

/-- The first of a name in the attendance is the first acquire of the name. -/
theorem first?_attendance (u : LockUse) (name : String) :
    u.attendance.first? name = (u.acquires.find? (·.name = name)).map (·.party) := by
  simp only [Attendance.first?, attendance, List.find?_map, Option.map_map]
  rfl

/-- Acquires that stand in order have different numbers. -/
theorem nodup_of_increasing {acquires : List Acquire}
    (increasing : acquires.Pairwise (·.party < ·.party)) : (acquires.map (·.party)).Nodup :=
  (List.pairwise_map.2 increasing).imp fun h => Nat.ne_of_lt h

namespace Consistent

variable {u : LockUse}

theorem distinct (c : u.Consistent) : (u.attendance.map (·.1)).Nodup := by
  rw [map_attendance]
  exact nodup_of_increasing c.increasing

/-- An acquire owns its lock if it has been asking for longest, going by the attendance. -/
theorem registry_owns_iff (c : u.Consistent) {a : Acquire} (ha : a ∈ u.acquires) :
    u.registry.owns a.party = true ↔ u.attendance.first? a.name = some a.party := by
  rw [c.tracks.owns_iff c.distinct]
  constructor
  · rintro ⟨name, hfirst⟩
    have hmem : (a.party, a.name) ∈ u.attendance := List.mem_map_of_mem ha
    have hname := Attendance.name_unique c.distinct hmem (Attendance.mem_of_first? hfirst)
    rwa [hname]
  · exact fun h => ⟨a.name, h⟩

/-- Somebody starts acquiring: the registry puts them last, as the acquires do. -/
theorem acquire (c : u.Consistent) (name : String) : (u.step (.acquire name)).Consistent := by
  have tracks : (u.step (.acquire name)).registry.Tracks (u.step (.acquire name)).attendance := by
    rw [attendance_acquire]
    exact c.tracks.arrive name u.fresh
  have increasing : (u.step (.acquire name)).acquires.Pairwise (·.party < ·.party) := by
    refine List.pairwise_append.2 ⟨c.increasing, List.pairwise_singleton _ _, ?_⟩
    intro a ha b hb
    obtain rfl := List.mem_singleton.1 hb
    exact c.below a ha
  refine ⟨tracks, increasing, ?_, ?_⟩
  · intro a ha
    rcases List.mem_append.1 ha with ha | ha
    · exact Nat.lt_succ_of_lt (c.below a ha)
    · obtain rfl := List.mem_singleton.1 ha
      exact Nat.lt_succ_self _
  · intro a ha hheld
    rcases List.mem_append.1 ha with ha | ha
    · -- An owner stays first, whoever arrives after it.
      have hfirst := (c.registry_owns_iff ha).1 (c.held a ha hheld)
      have hdistinct : ((u.step (.acquire name)).attendance.map (·.1)).Nodup := by
        rw [map_attendance]
        exact nodup_of_increasing increasing
      refine (tracks.owns_iff hdistinct).2 ⟨a.name, ?_⟩
      rw [attendance_acquire]
      exact Attendance.first?_arrive hfirst _
    · obtain rfl := List.mem_singleton.1 ha
      exact hheld

/-- A poll tells an acquire at most what the registry says already. -/
theorem poll (c : u.Consistent) (party : Party) : (u.step (.poll party)).Consistent := by
  have kept : ∀ a : Acquire, (if a.party = party then
      { a with held := a.held || u.registry.owns party } else a).party = a.party := by
    intro a
    split <;> rfl
  refine ⟨?_, ?_, ?_, ?_⟩
  · rw [attendance_poll]
    exact c.tracks
  · refine List.pairwise_map.2 (c.increasing.imp fun {a b} h => ?_)
    rwa [kept a, kept b]
  · intro a ha
    obtain ⟨b, hb, rfl⟩ := List.mem_map.1 ha
    rw [kept b]
    exact c.below b hb
  · intro a ha hheld
    obtain ⟨b, hb, rfl⟩ := List.mem_map.1 ha
    rw [kept b]
    split at hheld
    · rcases Bool.or_eq_true_iff.1 hheld with hheld | howns
      · exact c.held b hb hheld
      · exact ‹b.party = party› ▸ howns
    · exact c.held b hb hheld

/-- Whoever quits leaves the others as they were. -/
theorem quit (c : u.Consistent) (party : Party) : (u.step (.quit party)).Consistent := by
  have tracks : (u.step (.quit party)).registry.Tracks (u.attendance.without party) :=
    c.tracks.leave party
  refine ⟨u.attendance_quit party ▸ tracks, c.increasing.filter _, ?_, ?_⟩
  · exact fun a ha => c.below a (List.mem_of_mem_filter ha)
  · intro a ha hheld
    obtain ⟨ha, hne⟩ := List.mem_filter.1 ha
    have hfirst := (c.registry_owns_iff ha).1 (c.held a ha hheld)
    refine (tracks.owns_iff (Attendance.nodup_without c.distinct party)).2 ⟨a.name, ?_⟩
    exact Attendance.first?_without hfirst (by simpa using hne)

/-- **One step.** Whatever users do, the registry stays in step with the acquires. -/
theorem step (c : u.Consistent) (s : LockStep) : (u.step s).Consistent := by
  cases s with
  | acquire name => exact c.acquire name
  | poll party => exact c.poll party
  | quit party => exact c.quit party

end Consistent

/-- **All steps.** In every reachable state the registry is in step with the acquires. -/
theorem consistent_steps (l : List LockStep) : (start.steps l).Consistent := by
  suffices h : ∀ u : LockUse, u.Consistent → (u.steps l).Consistent from h start consistent_start
  induction l with
  | nil => exact fun u c => c
  | cons s l ih => exact fun u c => ih (u.step s) (c.step s)

/-! ## Owners -/

/-- An acquire is the earliest of its name among those that have not quit. -/
def Earliest (u : LockUse) (a : Acquire) : Prop :=
  a ∈ u.acquires ∧ ∀ b ∈ u.acquires, b.name = a.name → a.party ≤ b.party

namespace Consistent

variable {u : LockUse}

theorem eq_of_party_eq (c : u.Consistent) {a b : Acquire} (ha : a ∈ u.acquires)
    (hb : b ∈ u.acquires) (h : a.party = b.party) : a = b :=
  List.inj_on_of_nodup_map (nodup_of_increasing c.increasing) ha hb h

/-- The acquires of one name, seen as an attendance: the first is the earliest. -/
theorem first?_iff_earliest (c : u.Consistent) {a : Acquire} (ha : a ∈ u.acquires) :
    u.attendance.first? a.name = some a.party ↔ u.Earliest a := by
  -- Whatever `find?` returns stands before every other acquire of the name.
  have hearliest : ∀ b, u.acquires.find? (·.name = a.name) = some b → u.Earliest b := by
    intro b hb
    obtain ⟨hname, before, after, hsplit, hnone⟩ := List.find?_eq_some_iff_append.1 hb
    have hname : b.name = a.name := by simpa using hname
    refine ⟨hsplit ▸ by simp, fun d hd hdname => ?_⟩
    rw [hsplit] at hd
    rcases List.mem_append.1 hd with hd | hd
    · have : d.name ≠ a.name := by simpa using hnone d hd
      exact absurd (hdname.trans hname) this
    · rcases List.mem_cons.1 hd with rfl | hd
      · exact Nat.le_refl _
      · have hpairs := hsplit ▸ c.increasing
        have := (List.pairwise_append.1 hpairs).2.1
        exact Nat.le_of_lt ((List.pairwise_cons.1 this).1 d hd)
  obtain ⟨b, hb⟩ : ∃ b, u.acquires.find? (·.name = a.name) = some b :=
    Option.isSome_iff_exists.1 (List.find?_isSome.2 ⟨a, ha, by simp⟩)
  have hbname : b.name = a.name := by simpa using List.find?_some hb
  have hbe := hearliest b hb
  rw [first?_attendance, hb, Option.map_some, Option.some.injEq]
  constructor
  · intro h
    exact c.eq_of_party_eq hbe.1 ha h ▸ hbe
  · intro hae
    exact Nat.le_antisymm (hbe.2 a ha hbname.symm) (hae.2 b hbe.1 hbname)

/-- **Owning is being the earliest.** -/
theorem owns_iff_earliest (c : u.Consistent) {a : Acquire} : u.Owns a ↔ u.Earliest a := by
  constructor
  · rintro ⟨ha, hheld | howns⟩
    · exact (c.first?_iff_earliest ha).1 ((c.registry_owns_iff ha).1 (c.held a ha hheld))
    · exact (c.first?_iff_earliest ha).1 ((c.registry_owns_iff ha).1 howns)
  · intro h
    exact ⟨h.1, .inr ((c.registry_owns_iff h.1).2 ((c.first?_iff_earliest h.1).2 h))⟩

/-- Where somebody acquires a name, somebody owns the name's lock. -/
theorem exists_owner (c : u.Consistent) {a : Acquire} (ha : a ∈ u.acquires) :
    ∃ b, u.Owns b ∧ b.name = a.name := by
  obtain ⟨b, hb⟩ : ∃ b, u.acquires.find? (·.name = a.name) = some b :=
    Option.isSome_iff_exists.1 (List.find?_isSome.2 ⟨a, ha, by simp⟩)
  have hbname : b.name = a.name := by simpa using List.find?_some hb
  have hbmem := List.mem_of_find?_eq_some hb
  refine ⟨b, c.owns_iff_earliest.2 ((c.first?_iff_earliest hbmem).1 ?_), hbname⟩
  rw [first?_attendance, hbname, hb, Option.map_some]

/-- A name's lock has at most one owner. -/
theorem owner_unique (c : u.Consistent) {a b : Acquire} (ha : u.Owns a) (hb : u.Owns b)
    (hname : a.name = b.name) : a = b := by
  have hae := c.owns_iff_earliest.1 ha
  have hbe := c.owns_iff_earliest.1 hb
  exact c.eq_of_party_eq hae.1 hbe.1
    (Nat.le_antisymm (hae.2 b hbe.1 hname.symm) (hbe.2 a hae.1 hname))

/-- The first poll of an acquire gets the lock just when nobody owns the name's lock. -/
theorem acquire_held_iff (c : u.Consistent) (name : String) :
    (u.registry.arrive name u.fresh).owns u.fresh = true ↔ ∀ b, u.Owns b → b.name ≠ name := by
  have c' := c.acquire name
  let new : Acquire := ⟨u.fresh, name, (u.registry.arrive name u.fresh).owns u.fresh⟩
  have hmem : new ∈ (u.step (.acquire name)).acquires := List.mem_append_right _ (by simp [new])
  have howns : (u.registry.arrive name u.fresh).owns u.fresh = true ↔
      (u.step (.acquire name)).Earliest new :=
    (c'.registry_owns_iff hmem).trans (c'.first?_iff_earliest hmem)
  rw [howns]
  constructor
  · -- An owner of the name would have come earlier.
    intro hearliest b hb hname
    have hle := hearliest.2 b (List.mem_append_left _ hb.1) hname
    exact absurd (c.below b hb.1) (Nat.not_lt.2 hle)
  · -- Without an owner nobody acquires the name, so nobody is earlier.
    intro hnone
    refine ⟨hmem, fun b hb hname => ?_⟩
    rcases List.mem_append.1 hb with hb | hb
    · obtain ⟨d, hd, hdname⟩ := c.exists_owner hb
      exact absurd (hdname.trans hname) (hnone d hd)
    · exact List.mem_singleton.1 hb ▸ Nat.le_refl _

end Consistent

/-- An acquire that does not quit is still there, with its name and number. -/
theorem survives {u : LockUse} {a : Acquire} (ha : a ∈ u.acquires) {s : LockStep}
    (hs : s ≠ .quit a.party) :
    ∃ b ∈ (u.step s).acquires, b.party = a.party ∧ b.name = a.name := by
  cases s with
  | acquire name => exact ⟨a, List.mem_append_left _ ha, rfl, rfl⟩
  | poll party =>
    refine ⟨_, List.mem_map_of_mem ha, ?_, ?_⟩ <;> (split <;> rfl)
  | quit party =>
    have hne : a.party ≠ party := fun h => hs (h ▸ rfl)
    exact ⟨a, List.mem_filter.2 ⟨ha, by simpa using hne⟩, rfl, rfl⟩

/-- A lock passes to another acquire only when its owner quits, and then to the earliest of those left. -/
theorem Consistent.passes_to_earliest {u : LockUse} (c : u.Consistent) {s : LockStep}
    {a b b' : Acquire} (ha : u.Owns a) (hb : b ∈ u.acquires) (hname : b.name = a.name) (hne : b ≠ a)
    (hb' : (u.step s).Owns b') (hparty : b'.party = b.party) :
    s = .quit a.party ∧ ∀ d ∈ u.acquires, d.name = a.name → d ≠ a → b.party ≤ d.party := by
  have hae := c.owns_iff_earliest.1 ha
  have hbe := (c.step s).owns_iff_earliest.1 hb'
  have hlt : a.party < b.party := Nat.lt_of_le_of_ne (hae.2 b hb hname)
    fun h => hne (c.eq_of_party_eq hb hae.1 h.symm)
  -- `b'` is `b` after the step, under the same name.
  have hb'name : b'.name = a.name := by
    by_cases hs : s = .quit b.party
    · have := (List.mem_filter.1 (hs ▸ hbe.1)).2
      simp [hparty] at this
    · obtain ⟨e, he, hep, hen⟩ := survives hb hs
      rw [(c.step s).eq_of_party_eq hbe.1 he (hparty.trans hep.symm), hen, hname]
  -- Whoever is still there under the name does not come before `b'`.
  have hfirst : ∀ d ∈ u.acquires, d.name = a.name → s ≠ .quit d.party → b.party ≤ d.party := by
    intro d hd hdname hs
    obtain ⟨e, he, hep, hen⟩ := survives hd hs
    have hle := hbe.2 e he (by rw [hen, hb'name, hdname])
    rwa [hparty, hep] at hle
  have hquit : s = .quit a.party := by
    by_contra hs
    exact absurd (hfirst a hae.1 rfl hs) (Nat.not_le.2 hlt)
  refine ⟨hquit, fun d hd hdname hdne => hfirst d hd hdname ?_⟩
  intro hs
  exact hdne (c.eq_of_party_eq hd hae.1 (LockStep.quit.inj (hs.symm.trans hquit)))

/-- **A lock is owned by the earliest.** In every state that users can bring a registry to: a name's lock
has at most one owner; nobody waits for a name unless somebody else owns its lock; whoever acquires a
name gets its lock on the first poll just when nobody owned it, whatever happens to other names; the
owner is the earliest, going by first polls, of those who have not quit; and another acquire comes to
own the lock only when the owner quits, and then it is the earliest of those left. -/
theorem owner_is_earliest (l : List LockStep) :
    let u := start.steps l
    (∀ a b, u.Owns a → u.Owns b → a.name = b.name → a = b) ∧
    (∀ a ∈ u.acquires, ¬ u.Owns a → ∃ b, u.Owns b ∧ b.name = a.name ∧ b ≠ a) ∧
    (∀ name, ∃ a, (u.step (.acquire name)).acquires = u.acquires ++ [a] ∧ a.name = name ∧
      (a.held = true ↔ ∀ b, u.Owns b → b.name ≠ name)) ∧
    (∀ a ∈ u.acquires, (u.Owns a ↔ ∀ b ∈ u.acquires, b.name = a.name → a.party ≤ b.party)) ∧
    (∀ s a b b', u.Owns a → b ∈ u.acquires → b.name = a.name → b ≠ a →
      (u.step s).Owns b' → b'.party = b.party →
      s = .quit a.party ∧ ∀ d ∈ u.acquires, d.name = a.name → d ≠ a → b.party ≤ d.party) := by
  intro u
  have c : u.Consistent := consistent_steps l
  refine ⟨?_, ?_, ?_, ?_, ?_⟩
  · intro a b ha hb hname
    exact c.owner_unique ha hb hname
  · intro a ha hwaits
    obtain ⟨b, hb, hname⟩ := c.exists_owner ha
    exact ⟨b, hb, hname, fun h => hwaits (h ▸ hb)⟩
  · intro name
    exact ⟨_, rfl, rfl, c.acquire_held_iff name⟩
  · intro a ha
    rw [c.owns_iff_earliest]
    exact ⟨fun h => h.2, fun h => ⟨ha, h⟩⟩
  · intro s a b b' ha hb hname hne hb' hparty
    exact c.passes_to_earliest ha hb hname hne hb' hparty

end LockUse

end DevfilePush
