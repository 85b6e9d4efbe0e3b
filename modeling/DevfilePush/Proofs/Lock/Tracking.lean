import DevfilePush.Proofs.Lock.Exclusion
import Mathlib.Logic.Function.Basic

/-!
# Which names are tracked

A registry forgets idle names only when somebody arrives, and then it forgets all of them. So it tracks
more names than are in use only between two arrivals, and never fewer. An acquire counts from its first
poll on: one that was created and never polled leaves no trace.

## Main definitions

* `LockFutures`, `FutureStep`: a registry with all acquires that were created, whether polled or not.
* `LockFutures.InUse`: somebody holds a name's lock, or was handed it, or waits for it.

## Main statements

* `LockRegistry.Tracks.mem_keys_arrive`: the names that are tracked once somebody has arrived.
* `LockFutures.Sound.step`: every step keeps the futures in step with the registry.
* `LockFutures.tracks_names_in_use`: the tracked names against the names in use, in every history.
-/

namespace DevfilePush

/-! ## Pruning and arriving -/

namespace LockRegistry.Tracks

variable {r : LockRegistry} {who : Attendance}

/-- Every name of the attendance is tracked. -/
theorem mem_keys (t : r.Tracks who) {a : Party × String} (ha : a ∈ who) : a.2 ∈ r.locks.keys :=
  SortedMap.mem_keys_iff.2 ⟨_, t.known a ha⟩

/-- Pruning leaves the names of the attendance, and no others. -/
theorem mem_keys_prune (t : r.Tracks who) {n : String} :
    n ∈ r.prune.locks.keys ↔ ∃ a ∈ who, a.2 = n := by
  constructor
  · intro h
    obtain ⟨l, hl⟩ := SortedMap.mem_keys_iff.1 h
    obtain ⟨hlock, hused⟩ := Option.filter_eq_some_iff.1 (r.get?_prune n ▸ hl)
    -- Somebody is at the lock, and everybody is at the lock of their own name.
    rw [inUse, t.present, List.any_map, List.any_eq_true] at hused
    obtain ⟨a, ha, hat⟩ := hused
    exact ⟨a, ha, (t.lock_eq_iff hlock ha).1 (by simpa using hat)⟩
  · rintro ⟨a, ha, rfl⟩
    exact t.prune.mem_keys ha

/-- Arriving leaves the names of the attendance and adds the one that is asked for. -/
theorem mem_keys_arrive (t : r.Tracks who) (name : String) (party : Party) {n : String} :
    n ∈ (r.arrive name party).locks.keys ↔ ∃ a ∈ who ++ [(party, name)], a.2 = n := by
  constructor
  · intro h
    cases hname : r.prune.locks.get? name with
    | some l =>
      rw [arrive_of_tracked hname] at h
      obtain ⟨a, ha, hn⟩ := t.mem_keys_prune.1 h
      exact ⟨a, List.mem_append_left _ ha, hn⟩
    | none =>
      rw [arrive_of_untracked hname] at h
      obtain ⟨l, hl⟩ := SortedMap.mem_keys_iff.1 h
      rw [SortedMap.get?_insert] at hl
      split at hl
      · exact ⟨(party, name), by simp, ‹n = name›.symm⟩
      · obtain ⟨a, ha, hn⟩ := t.mem_keys_prune.1 (SortedMap.mem_keys_iff.2 ⟨l, hl⟩)
        exact ⟨a, List.mem_append_left _ ha, hn⟩
  · rintro ⟨a, ha, rfl⟩
    exact (t.arrive name party).mem_keys ha

end LockRegistry.Tracks

/-! ## Futures -/

/-- How far an acquire has come. -/
inductive FutureStage where
  /-- It was created for a name and not polled yet. -/
  | unpolled (name : String)
  /-- It was polled, and asks for the name as a party. -/
  | polled (name : String) (party : Party)
  deriving DecidableEq, Repr

/-- One thing that is done with acquires, each known by a number of its own. -/
inductive FutureStep where
  | create (future : Nat) (name : String)
  | poll (future : Nat)
  /-- The acquire is dropped, or the guard that it was given is released. -/
  | drop (future : Nat)
  deriving DecidableEq, Repr

/-- The acquire that something is done with. -/
def FutureStep.future : FutureStep → Nat
  | create future _ | poll future | drop future => future

/-- A registry and all acquires that were created and not dropped. -/
structure LockFutures where
  use : LockUse
  stage : Nat → Option FutureStage

namespace LockFutures

/-- A registry for which no acquire was created yet. -/
def start : LockFutures := ⟨.start, fun _ => none⟩

/-- What a step does. An acquire runs only when it is polled: the first poll asks for the lock. -/
def step (s : LockFutures) : FutureStep → LockFutures
  | .create future name =>
    match s.stage future with
    | none => { s with stage := Function.update s.stage future (some (.unpolled name)) }
    | some _ => s
  | .poll future =>
    match s.stage future with
    | none => s
    | some (.unpolled name) =>
      { use := s.use.step (.acquire name)
        stage := Function.update s.stage future (some (.polled name s.use.fresh)) }
    | some (.polled _ party) => { s with use := s.use.step (.poll party) }
  | .drop future =>
    match s.stage future with
    | some (.polled _ party) =>
      ⟨s.use.step (.quit party), Function.update s.stage future none⟩
    | _ => { s with stage := Function.update s.stage future none }

/-- What steps do one after another. -/
def steps (s : LockFutures) (l : List FutureStep) : LockFutures := l.foldl step s

/-- The tracked names. -/
def tracked (s : LockFutures) : List String := s.use.registry.locks.keys

/-- Some acquire of the name was polled, and neither was it dropped nor its guard released. -/
def InUse (s : LockFutures) (name : String) : Prop :=
  ∃ future party, s.stage future = some (.polled name party)

/-- The futures are in step with the acquires: those that were polled are the acquires, each of them
once. -/
structure Sound (s : LockFutures) : Prop where
  consistent : s.use.Consistent
  attending : ∀ name party, (party, name) ∈ s.use.attendance ↔
    ∃ future, s.stage future = some (.polled name party)
  alone : ∀ {future other name name' party}, s.stage future = some (.polled name party) →
    s.stage other = some (.polled name' party) → future = other

theorem sound_start : start.Sound where
  consistent := LockUse.consistent_start
  attending name party := by simp [start, LockUse.start, LockUse.attendance]
  alone := by
    intro future other name name' party h
    cases h

variable {s : LockFutures}

namespace Sound

/-- Where the polled futures stay, they stay in step with the same acquires. -/
theorem of_polled (c : s.Sound) {use : LockUse} {stage : Nat → Option FutureStage}
    (consistent : use.Consistent) (same : use.attendance = s.use.attendance)
    (kept : ∀ future name party, stage future = some (.polled name party) ↔
      s.stage future = some (.polled name party)) : Sound ⟨use, stage⟩ where
  consistent := consistent
  attending name party := by
    simp only [same, kept]
    exact c.attending name party
  alone hfuture hother := c.alone ((kept ..).1 hfuture) ((kept ..).1 hother)

theorem create (c : s.Sound) (future : Nat) (name : String) : (s.step (.create future name)).Sound := by
  cases hstage : s.stage future with
  | some stage => simpa only [step, hstage] using c
  | none =>
    simp only [step, hstage]
    refine c.of_polled c.consistent rfl fun other name' party => ?_
    by_cases hother : other = future
    · simp [hother, hstage]
    · rw [Function.update_of_ne hother]

/-- The first poll brings in a party that no other future asks as. -/
theorem first_poll (c : s.Sound) {future : Nat} {name : String}
    (unpolled : s.stage future = some (.unpolled name)) : (s.step (.poll future)).Sound := by
  have huse : (s.step (.poll future)).use = s.use.step (.acquire name) := by
    simp only [LockFutures.step, unpolled]
  have hstage : (s.step (.poll future)).stage =
      Function.update s.stage future (some (.polled name s.use.fresh)) := by
    simp only [LockFutures.step, unpolled]
  have new : ∀ other name', s.stage other ≠ some (.polled name' s.use.fresh) := by
    intro other name' h
    obtain ⟨a, ha, heq⟩ := List.mem_map.1 ((c.attending _ _).2 ⟨other, h⟩)
    have hparty : a.party = s.use.fresh := congrArg Prod.fst heq
    exact absurd (c.consistent.below a ha) (hparty ▸ Nat.lt_irrefl _)
  refine ⟨huse ▸ c.consistent.acquire name, fun name' party => ?_, ?_⟩
  · rw [huse, hstage, LockUse.attendance_acquire, List.mem_append, c.attending, List.mem_singleton]
    constructor
    · rintro (⟨other, hother⟩ | h)
      · have hne : other ≠ future := by
          rintro rfl
          rw [unpolled] at hother
          cases hother
        exact ⟨other, by rw [Function.update_of_ne hne, hother]⟩
      · obtain ⟨rfl, rfl⟩ := Prod.mk.inj h
        exact ⟨future, Function.update_self ..⟩
    · rintro ⟨other, hother⟩
      by_cases hne : other = future
      · rw [hne, Function.update_self] at hother
        cases hother
        exact .inr rfl
      · rw [Function.update_of_ne hne] at hother
        exact .inl ⟨other, hother⟩
  · intro f g name' name'' party hf hg
    rw [hstage, Function.update_apply] at hf hg
    split at hf <;> split at hg
    · subst_vars; rfl
    · cases hf
      exact absurd hg (new g _)
    · cases hg
      exact absurd hf (new f _)
    · exact c.alone hf hg

theorem poll (c : s.Sound) (future : Nat) : (s.step (.poll future)).Sound := by
  cases hstage : s.stage future with
  | none => simpa only [step, hstage] using c
  | some stage =>
    cases stage with
    | unpolled name => exact c.first_poll hstage
    | polled name party =>
      simp only [step, hstage]
      exact c.of_polled (c.consistent.poll party) (s.use.attendance_poll party) fun _ _ _ => Iff.rfl

/-- Whoever drops a polled acquire takes its party away, and no other. -/
theorem drop_polled (c : s.Sound) {future : Nat} {name : String} {party : Party}
    (polled : s.stage future = some (.polled name party)) : (s.step (.drop future)).Sound := by
  have huse : (s.step (.drop future)).use = s.use.step (.quit party) := by
    simp only [LockFutures.step, polled]
  have hstage : (s.step (.drop future)).stage = Function.update s.stage future none := by
    simp only [LockFutures.step, polled]
  have kept : ∀ {other : Nat} {name' : String} {party' : Party},
      (s.step (.drop future)).stage other = some (.polled name' party') ↔
        s.stage other = some (.polled name' party') ∧ other ≠ future := by
    intro other name' party'
    rw [hstage, Function.update_apply]
    by_cases hother : other = future <;> simp [hother]
  refine ⟨huse ▸ c.consistent.quit party, fun name' party' => ?_, ?_⟩
  · rw [huse, LockUse.attendance_quit, Attendance.without, List.mem_filter, c.attending]
    simp only [kept]
    constructor
    · rintro ⟨⟨other, hother⟩, hne⟩
      refine ⟨other, hother, ?_⟩
      rintro rfl
      rw [polled] at hother
      cases hother
      simp at hne
    · rintro ⟨other, hother, hof⟩
      refine ⟨⟨other, hother⟩, decide_eq_true fun hparty => ?_⟩
      obtain rfl : party' = party := hparty
      exact hof (c.alone hother polled)
  · intro f g name' name'' party' hf hg
    exact c.alone (kept.1 hf).1 (kept.1 hg).1

theorem drop (c : s.Sound) (future : Nat) : (s.step (.drop future)).Sound := by
  have harmless : (∀ name party, s.stage future ≠ some (.polled name party)) →
      Sound { s with stage := Function.update s.stage future none } := by
    intro hfuture
    refine c.of_polled c.consistent rfl fun other name party => ?_
    by_cases hother : other = future
    · simp [hother, hfuture]
    · rw [Function.update_of_ne hother]
  cases hstage : s.stage future with
  | none =>
    simp only [step, hstage]
    exact harmless (by simp [hstage])
  | some stage =>
    cases stage with
    | unpolled name =>
      simp only [step, hstage]
      exact harmless (by simp [hstage])
    | polled name party => exact c.drop_polled hstage

/-- **One step.** Whatever is done, the futures stay in step with the registry. -/
theorem step (c : s.Sound) (next : FutureStep) : (s.step next).Sound := by
  cases next with
  | create future name => exact c.create future name
  | poll future => exact c.poll future
  | drop future => exact c.drop future

theorem inUse_iff (c : s.Sound) {name : String} :
    s.InUse name ↔ ∃ a ∈ s.use.attendance, a.2 = name := by
  constructor
  · rintro ⟨future, party, h⟩
    exact ⟨(party, name), (c.attending ..).2 ⟨future, h⟩, rfl⟩
  · rintro ⟨⟨party, n⟩, ha, rfl⟩
    obtain ⟨future, h⟩ := (c.attending ..).1 ha
    exact ⟨future, party, h⟩

/-- Whatever is in use is tracked. -/
theorem tracked (c : s.Sound) {name : String} (h : s.InUse name) : name ∈ s.tracked := by
  obtain ⟨a, ha, rfl⟩ := c.inUse_iff.1 h
  exact c.consistent.tracks.mem_keys ha

/-- Right after a first poll exactly the names in use are tracked. -/
theorem tracked_first_poll (c : s.Sound) {future : Nat} {name : String}
    (unpolled : s.stage future = some (.unpolled name)) {n : String} :
    n ∈ (s.step (.poll future)).tracked ↔ (s.step (.poll future)).InUse n := by
  rw [(c.poll future).inUse_iff]
  simp only [LockFutures.step, unpolled, LockUse.attendance_acquire]
  exact c.consistent.tracks.mem_keys_arrive name s.use.fresh

end Sound

/-- **All steps.** In every reachable state the futures are in step with the registry. -/
theorem sound_steps (l : List FutureStep) : (start.steps l).Sound := by
  suffices h : ∀ s : LockFutures, s.Sound → (s.steps l).Sound from h start sound_start
  induction l with
  | nil => exact fun s c => c
  | cons next l ih => exact fun s c => ih (s.step next) (c.step next)

/-- Only a first poll changes the locks that names lead to. -/
theorem locks_step {next : FutureStep}
    (other : ∀ future name, next = .poll future → s.stage future ≠ some (.unpolled name)) :
    (s.step next).use.registry.locks = s.use.registry.locks := by
  cases next with
  | create future name =>
    simp only [step]
    split <;> rfl
  | drop future =>
    simp only [step]
    split <;> rfl
  | poll future =>
    simp only [step]
    split
    · rfl
    · exact absurd ‹_› (other future _ rfl)
    · rfl

/-! ## Acquires that are never polled -/

/-- As if a future had not been created. -/
def forget (s : LockFutures) (future : Nat) : LockFutures :=
  { s with stage := Function.update s.stage future none }

/-- What is done with other futures does not depend on whether a future was created. -/
theorem forget_step_of_ne {future : Nat} {next : FutureStep} (hne : next.future ≠ future) :
    (s.forget future).step next = (s.step next).forget future := by
  have same : Function.update s.stage future none next.future = s.stage next.future :=
    Function.update_of_ne hne ..
  cases next with
  | create other name =>
    simp only [FutureStep.future] at hne same
    simp only [step, forget, same]
    split
    · rw [Function.update_comm hne]
    · rfl
  | poll other =>
    simp only [FutureStep.future] at hne same
    simp only [step, forget, same]
    split
    · rfl
    · rw [Function.update_comm hne]
    · rfl
  | drop other =>
    simp only [FutureStep.future] at hne same
    simp only [step, forget, same]
    split <;> rw [Function.update_comm hne]

/-- A future that was not polled can be created and dropped with nothing left of it. -/
theorem step_forget {future : Nat} {next : FutureStep} (hfuture : next.future = future)
    (unpolled : next ≠ .poll future) (never : ∀ name party, s.stage future ≠ some (.polled name party)) :
    (s.step next).forget future = s.forget future := by
  obtain rfl := hfuture
  cases next with
  | poll other => exact absurd rfl unpolled
  | create other name =>
    simp only [FutureStep.future, step, forget]
    split <;> simp
  | drop other =>
    simp only [FutureStep.future, step, forget]
    split
    · exact absurd ‹_› (never _ _)
    · simp

theorem stage_step_of_unpolled {future : Nat} {next : FutureStep} (unpolled : next ≠ .poll future)
    (never : ∀ name party, s.stage future ≠ some (.polled name party)) (name : String) (party : Party) :
    (s.step next).stage future ≠ some (.polled name party) := by
  cases next with
  | create other name' =>
    simp only [step]
    split
    · by_cases h : future = other
      · simp [h]
      · simpa [Function.update_of_ne h] using never name party
    · exact never name party
  | poll other =>
    have h : future ≠ other := fun h => unpolled (h ▸ rfl)
    simp only [step]
    split
    · exact never name party
    · simpa [Function.update_of_ne h] using never name party
    · exact never name party
  | drop other =>
    by_cases h : future = other
    · simp only [step]
      split <;> simp [h]
    · simp only [step]
      split <;> simpa [Function.update_of_ne h] using never name party

/-- Leaving out all that is done with a future that is never polled leaves everything else as it is. -/
theorem steps_without (l : List FutureStep) {future : Nat} (unpolled : FutureStep.poll future ∉ l)
    (never : ∀ name party, s.stage future ≠ some (.polled name party)) :
    (s.forget future).steps (l.filter (·.future ≠ future)) = (s.steps l).forget future := by
  induction l generalizing s with
  | nil => rfl
  | cons next l ih =>
    rw [List.mem_cons, not_or] at unpolled
    have hnext : next ≠ .poll future := fun h => unpolled.1 h.symm
    have hrest := ih (s := s.step next) unpolled.2 (stage_step_of_unpolled hnext never)
    by_cases hfuture : next.future = future
    · rw [List.filter_cons_of_neg (by simpa using hfuture), ← step_forget hfuture hnext never]
      exact hrest
    · rw [List.filter_cons_of_pos (by simpa using hfuture)]
      simp only [steps, List.foldl_cons, forget_step_of_ne hfuture]
      exact hrest

/-- **The registry tracks the names in use.** In every state that a registry can be brought to: right after
the first poll of an acquire, exactly the names in use are tracked, among them the name that it is for; no
other step changes what is tracked, nor the lock that a name leads to; every name in use is tracked; the
size of the registry counts each tracked name once; who is at the lock of a tracked name are those who
acquire that name; and what is done with an acquire that is never polled might as well not have been done. -/
theorem tracks_names_in_use (l : List FutureStep) :
    let s := start.steps l
    (∀ future name, s.stage future = some (.unpolled name) →
      (∀ n, n ∈ (s.step (.poll future)).tracked ↔ (s.step (.poll future)).InUse n) ∧
      (s.step (.poll future)).InUse name) ∧
    (∀ next, (∀ future name, next = .poll future → s.stage future ≠ some (.unpolled name)) →
      (s.step next).tracked = s.tracked ∧
      (s.step next).use.registry.locks = s.use.registry.locks) ∧
    (∀ name, s.InUse name → name ∈ s.tracked) ∧
    (s.tracked.Nodup ∧ s.use.registry.size = s.tracked.length) ∧
    (∀ name lock, s.use.registry.locks.get? name = some lock →
      ∀ party, party ∈ s.use.registry.queue lock ↔
        ∃ future, s.stage future = some (.polled name party)) ∧
    (∀ future, FutureStep.poll future ∉ l →
      (start.steps (l.filter (·.future ≠ future))).use = s.use) := by
  intro s
  have c : s.Sound := sound_steps l
  refine ⟨?_, ?_, fun name => c.tracked, ⟨SortedMap.nodup_keys _, ?_⟩, ?_, ?_⟩
  · intro future name unpolled
    refine ⟨fun n => c.tracked_first_poll unpolled, future, s.use.fresh, ?_⟩
    simp only [step, unpolled, Function.update_self]
  · intro next other
    have hlocks := locks_step other
    exact ⟨congrArg SortedMap.keys hlocks, hlocks⟩
  · exact (List.length_map _).symm
  · intro name lock hlock party
    rw [c.consistent.tracks.queue_of_tracked hlock, ← c.attending name party]
    simp
  · intro future unpolled
    have hnever : ∀ name party, start.stage future ≠ some (.polled name party) := nofun
    have hforget : start.forget future = start := by
      simp [forget, start]
    have h := steps_without l unpolled hnever
    rw [hforget] at h
    exact (congrArg LockFutures.use h).trans rfl

/-- An idle name stays tracked until somebody asks for another one, whether or not a third one is about to
be asked for. -/
example :
    let s := start.steps [.create 0 "frontend", .poll 0, .create 1 "backend", .poll 1, .drop 1,
      .create 2 "worker"]
    s.tracked = ["backend", "frontend"] ∧ (s.step (.poll 2)).tracked = ["frontend", "worker"] := by
  decide +kernel

end LockFutures

end DevfilePush
