import DevfilePush.Proofs.Lock.Attendance
import DevfilePush.Proofs.Pool.Session
import DevfilePush.Simulation.Pool

/-!
# Pushes never make a second one

However many pushes share an engine and the locks, in whatever order their calls are made and however
they are met or dropped, no alias comes to have a second container and no role a second volume. Every
push that is engaged abides where the engine stands. A call of one push does not change that for pushes
of other components, which it gives nothing; and those of its own component have not made a call yet, as
they wait for the lock, and so would abide wherever the engine stood.

## Main definitions

* `Pool.Sound`: what holds of every pool that can be reached.

## Main statements

* `Pool.Sound.step`: every step keeps a pool sound, one lemma for each kind of step.
* `Pool.at_most_one`: the numbers of containers and volumes in every pool that can be reached.
-/

namespace DevfilePush

/-! ## Where a session stands -/

section Pause

variable {engine : Conduct} {component : String} {h after : Holdings} {session : Script PushReport}
  {request : Request} {next : Answer request.Reply → Script PushReport}

/-- A session that abides goes on to abide when its next call is met, which brings about no more than it
may. -/
theorem Script.Abides.calling (hs : session.Abides engine component (fun _ _ => True) h)
    (pauses : Pause.ofSession session = .calling request next) {answer : Answer request.Reply}
    (meets : engine h request answer after) :
    h.Keeps after component ∧ (next answer).Abides engine component (fun _ _ => True) after := by
  induction session with
  | done outcome => cases pauses
  | fail error => cases pauses
  | log event rest ih => exact ih hs pauses
  | call r deadline rest ih =>
    cases pauses
    exact hs h (.refl _ _) answer after meets

end Pause

namespace Pool

variable {engine : Conduct} {config : ValidConfig} {start : Holdings} {who : Attendance} {pool : Pool}
  {n : Nat} {task : PushTask} {session : Script PushReport}

/-- A push of a number and component is at a lock, with this left to do. -/
def Engaged (pool : Pool) (n : Nat) (component : String) (session : Script PushReport) : Prop :=
  ∃ task, pool.tasks[n]? = some task ∧ task.stage = .engaged session ∧ task.push.component = component

/-- What holds of every pool that can be reached from holdings at the start, for some attendance that
its locks stand for. -/
structure Sound (engine : Conduct) (start : Holdings) (who : Attendance) (pool : Pool) : Prop where
  tracks : pool.locks.Tracks who
  distinct : (who.map (·.1)).Nodup
  /-- Those at the locks are the pushes that are engaged. -/
  present : ∀ n component, (n, component) ∈ who ↔ ∃ session, pool.Engaged n component session
  /-- Whoever is engaged abides where the engine stands. -/
  abides : ∀ {n component session}, pool.Engaged n component session →
    session.Abides engine component (fun _ _ => True) pool.holdings
  /-- Whoever waits would abide anywhere. -/
  waiting : ∀ {n component session}, pool.Engaged n component session →
    who.first? component ≠ some n → session.Careful engine component
  containers : ∀ component aliasName, (pool.holdings.ofAlias component aliasName).length ≤
    max 1 (start.ofAlias component aliasName).length
  volumes : ∀ component (role : VolumeRole),
    (pool.holdings.volumesWith (role.labels component)).length ≤
      max 1 (start.volumesWith (role.labels component)).length

/-! ## Single pushes -/

theorem getElem?_put (found : pool.tasks[n]? = some task) (stage : Stage) (m : Nat) :
    (pool.put n task stage).tasks[m]? =
      if m = n then some { task with stage } else pool.tasks[m]? := by
  have hlength : n < pool.tasks.length := (List.getElem?_eq_some_iff.1 found).1
  rw [put, List.getElem?_set]
  by_cases hmn : m = n
  · simp [hmn, hlength]
  · rw [if_neg (Ne.symm hmn), if_neg hmn]

/-- The other pushes are as engaged as they were. -/
theorem engaged_put_of_ne (found : pool.tasks[n]? = some task) (stage : Stage) {m : Nat} (hne : m ≠ n)
    {component : String} {session : Script PushReport} :
    (pool.put n task stage).Engaged m component session ↔ pool.Engaged m component session := by
  simp only [Engaged, getElem?_put found, if_neg hne]

/-- The push itself is engaged if its stage says so. -/
theorem engaged_put_self (found : pool.tasks[n]? = some task) (stage : Stage) {component : String}
    {session : Script PushReport} :
    (pool.put n task stage).Engaged n component session ↔
      stage = .engaged session ∧ task.push.component = component := by
  simp only [Engaged, getElem?_put found, if_pos, Option.some.injEq, exists_eq_left']

/-- Only a push whose stage says so is engaged. -/
theorem stage_of_engaged (found : pool.tasks[n]? = some task) {component : String}
    (engaged : pool.Engaged n component session) :
    task.stage = .engaged session ∧ task.push.component = component := by
  obtain ⟨task', found', hstage, hcomponent⟩ := engaged
  rw [found] at found'
  obtain rfl := Option.some.inj found'
  exact ⟨hstage, hcomponent⟩

namespace Sound

/-- An engaged push that owns its lock has been asking for its component for longest. -/
theorem first_of_owns (sound : pool.Sound engine start who) {component : String}
    (engaged : pool.Engaged n component session) (owns : pool.locks.owns n = true) :
    who.first? component = some n := by
  obtain ⟨name, hfirst⟩ := (sound.tracks.owns_iff sound.distinct).1 owns
  have hmem : (n, component) ∈ who := (sound.present n component).2 ⟨session, engaged⟩
  rw [Attendance.name_unique sound.distinct hmem (Attendance.mem_of_first? hfirst)]
  exact hfirst

/-! ## Steps -/

/-- A push that is not engaged, and does not become so, changes nothing for the others. -/
theorem put (sound : pool.Sound engine start who) (found : pool.tasks[n]? = some task) {stage : Stage}
    (was : ∀ session, task.stage ≠ .engaged session) (becomes : ∀ session, stage ≠ .engaged session) :
    (pool.put n task stage).Sound engine start who := by
  have same : ∀ {m component session}, (pool.put n task stage).Engaged m component session ↔
      pool.Engaged m component session := by
    intro m component session
    by_cases hmn : m = n
    · subst hmn
      rw [engaged_put_self found]
      exact ⟨fun h => absurd h.1 (becomes session),
        fun h => absurd (stage_of_engaged found h).1 (was session)⟩
    · exact engaged_put_of_ne found stage hmn
  exact
    { tracks := sound.tracks
      distinct := sound.distinct
      present := fun m component => by simp only [same, sound.present]
      abides := fun h => sound.abides (same.1 h)
      waiting := fun h => sound.waiting (same.1 h)
      containers := sound.containers
      volumes := sound.volumes }

/-- A push that asks for its lock comes last, and has made no call yet. -/
theorem enter (sound : pool.Sound engine start who) (found : pool.tasks[n]? = some task)
    (idle : task.stage = .idle) (careful : session.Careful engine task.push.component) :
    (pool.enter n task session).Sound engine start (who ++ [(n, task.push.component)]) := by
  have hself : ∀ {component s}, (pool.enter n task session).Engaged n component s →
      s.Careful engine component := by
    intro component s h
    obtain ⟨hs, rfl⟩ := (engaged_put_self found _).1 h
    obtain rfl := Stage.engaged.inj hs
    exact careful
  have hother : ∀ {m component s}, m ≠ n → ((pool.enter n task session).Engaged m component s ↔
      pool.Engaged m component s) := fun hmn => engaged_put_of_ne found _ hmn
  have habsent : ∀ component, (n, component) ∉ who := by
    intro component hmem
    obtain ⟨s, h⟩ := (sound.present n component).1 hmem
    have hstage := (stage_of_engaged found h).1
    rw [idle] at hstage
    cases hstage
  refine ⟨sound.tracks.arrive _ _, Attendance.nodup_arrive sound.distinct habsent _, ?_, ?_, ?_,
    sound.containers, sound.volumes⟩
  · intro m component
    rw [List.mem_append, List.mem_singleton, Prod.mk.injEq]
    by_cases hmn : m = n
    · subst hmn
      have hengaged : (∃ s, (pool.enter m task session).Engaged m component s) ↔
          component = task.push.component := by
        constructor
        · rintro ⟨s, h⟩
          exact ((engaged_put_self found _).1 h).2.symm
        · rintro rfl
          exact ⟨session, (engaged_put_self found _).2 ⟨rfl, rfl⟩⟩
      rw [hengaged]
      exact ⟨fun h => h.elim (fun h => absurd h (habsent component)) fun h => h.2,
        fun h => .inr ⟨rfl, h⟩⟩
    · rw [exists_congr fun s => hother hmn, ← sound.present]
      exact ⟨fun h => h.elim id fun h => absurd h.1 hmn, .inl⟩
  · intro m component s h
    by_cases hmn : m = n
    · subst hmn
      exact hself h pool.holdings
    · exact sound.abides ((hother hmn).1 h)
  · intro m component s h hwaits
    by_cases hmn : m = n
    · subst hmn
      exact hself h
    · exact sound.waiting ((hother hmn).1 h) fun hfirst =>
        hwaits (Attendance.first?_arrive hfirst _)

/-- A push that leaves its lock makes no more calls. -/
theorem exit (sound : pool.Sound engine start who) (found : pool.tasks[n]? = some task) {stage : Stage}
    (becomes : ∀ session, stage ≠ .engaged session) :
    (pool.exit n task stage).Sound engine start (who.without n) := by
  have hself : ∀ {component s}, ¬ (pool.exit n task stage).Engaged n component s :=
    fun h => becomes _ ((engaged_put_self found _).1 h).1
  have hother : ∀ {m component s}, m ≠ n → ((pool.exit n task stage).Engaged m component s ↔
      pool.Engaged m component s) := fun hmn => engaged_put_of_ne found _ hmn
  refine ⟨sound.tracks.leave n, Attendance.nodup_without sound.distinct n, ?_, ?_, ?_,
    sound.containers, sound.volumes⟩
  · intro m component
    rw [Attendance.without, List.mem_filter, decide_eq_true_eq]
    by_cases hmn : m = n
    · subst hmn
      constructor
      · rintro ⟨-, hmm⟩
        exact absurd rfl hmm
      · rintro ⟨s, h⟩
        exact absurd h hself
    · rw [exists_congr fun s => hother hmn, ← sound.present]
      exact and_iff_left hmn
  · intro m component s h
    have hmn : m ≠ n := fun hmn => hself (hmn ▸ h)
    exact sound.abides ((hother hmn).1 h)
  · intro m component s h hwaits
    have hmn : m ≠ n := fun hmn => hself (hmn ▸ h)
    exact sound.waiting ((hother hmn).1 h) fun hfirst =>
      hwaits (Attendance.first?_without hfirst hmn)

/-- A call of the owner of a lock leaves everybody abiding where the engine stands then. -/
theorem call (sound : pool.Sound engine start who) (found : pool.tasks[n]? = some task)
    (engaged : task.stage = .engaged session) (owns : pool.locks.owns n = true) {request : Request}
    {next : Answer request.Reply → Script PushReport} {answer : Answer request.Reply} {after : Holdings}
    (pauses : Pause.ofSession session = .calling request next)
    (meets : engine pool.holdings request answer after) :
    ((pool.put n task (.engaged (next answer))).hold after).Sound engine start who := by
  have hengaged : pool.Engaged n task.push.component session := ⟨task, found, engaged, rfl⟩
  have hfirst : who.first? task.push.component = some n := sound.first_of_owns hengaged owns
  obtain ⟨hkeeps, hnext⟩ := (sound.abides hengaged).calling pauses meets
  have hother : ∀ {m component s}, m ≠ n →
      (((pool.put n task (.engaged (next answer))).hold after).Engaged m component s ↔
        pool.Engaged m component s) := fun hmn => engaged_put_of_ne found _ hmn
  have hself : ∀ {component s},
      ((pool.put n task (.engaged (next answer))).hold after).Engaged n component s ↔
        Stage.engaged (next answer) = .engaged s ∧ task.push.component = component :=
    engaged_put_self found _
  refine ⟨sound.tracks, sound.distinct, ?_, ?_, ?_, ?_, ?_⟩
  · intro m component
    rw [sound.present]
    by_cases hmn : m = n
    · subst hmn
      constructor
      · rintro ⟨s, h⟩
        exact ⟨next answer, hself.2 ⟨rfl, (stage_of_engaged found h).2⟩⟩
      · rintro ⟨s, h⟩
        exact ⟨session, task, found, engaged, (hself.1 h).2⟩
    · exact exists_congr fun s => (hother hmn).symm
  · intro m component s h
    by_cases hmn : m = n
    · subst hmn
      obtain ⟨hs, rfl⟩ := hself.1 h
      obtain rfl := Stage.engaged.inj hs
      exact hnext
    · have h' := (hother hmn).1 h
      by_cases hcomponent : component = task.push.component
      · -- of the same component, it waits for the lock that `n` owns
        subst hcomponent
        refine sound.waiting h' (fun hm => hmn ?_) after
        exact Option.some.inj (hm.symm.trans hfirst)
      · exact (sound.abides h').stable (hkeeps.others component hcomponent)
  · intro m component s h hwaits
    have hmn : m ≠ n := by
      rintro rfl
      obtain ⟨-, rfl⟩ := hself.1 h
      exact hwaits hfirst
    exact sound.waiting ((hother hmn).1 h) hwaits
  · exact fun component aliasName => hkeeps.ofAlias_length_le (sound.containers component aliasName)
  · exact fun component role => hkeeps.volumesWith_length_le (sound.volumes component role)

/-- A push that is dropped while it waits for an answer makes its call and leaves. -/
theorem dropCalling (sound : pool.Sound engine start who) (found : pool.tasks[n]? = some task)
    (engaged : task.stage = .engaged session) (owns : pool.locks.owns n = true) {request : Request}
    {next : Answer request.Reply → Script PushReport} {answer : Answer request.Reply} {after : Holdings}
    (pauses : Pause.ofSession session = .calling request next)
    (meets : engine pool.holdings request answer after) :
    ((pool.exit n task .dropped).hold after).Sound engine start (who.without n) := by
  have hcalled := sound.call found engaged owns pauses meets
  have hfound : ((pool.put n task (.engaged (next answer))).hold after).tasks[n]? =
      some { task with stage := .engaged (next answer) } := by
    change (pool.put n task (.engaged (next answer))).tasks[n]? = _
    rw [getElem?_put found, if_pos rfl]
  have hexit : (((pool.put n task (.engaged (next answer))).hold after).exit n
      { task with stage := .engaged (next answer) } .dropped).Sound engine start (who.without n) :=
    hcalled.exit hfound (by simp)
  have hsame : ((pool.put n task (.engaged (next answer))).hold after).exit n
      { task with stage := .engaged (next answer) } .dropped =
      (pool.exit n task .dropped).hold after := by
    simp only [Pool.exit, Pool.put, hold, List.set_set]
  rwa [hsame] at hexit

/-- Every step keeps a pool sound. -/
theorem step (honest : engine.Honest) (sound : pool.Sound engine start who) {last : Pool}
    (next : Step engine config pool last) : ∃ who', last.Sound engine start who' := by
  cases next with
  | refuse found idle fails => exact ⟨_, sound.put found (by simp [idle]) (by simp)⟩
  | begin found idle passes =>
    exact ⟨_, sound.enter found idle (Push.session_careful honest _ config _)⟩
  | call found engaged owns pauses meets => exact ⟨_, sound.call found engaged owns pauses meets⟩
  | finish found engaged owns ends => exact ⟨_, sound.exit found (by simp)⟩
  | forget found idle => exact ⟨_, sound.put found (by simp [idle]) (by simp)⟩
  | drop found engaged => exact ⟨_, sound.exit found (by simp)⟩
  | dropCalling found engaged owns pauses meets =>
    exact ⟨_, sound.dropCalling found engaged owns pauses meets⟩

theorem ofPushes (holdings : Holdings) (pushes : List (Push × UrlListing)) :
    (Pool.ofPushes holdings pushes).Sound engine holdings [] := by
  have none : ∀ {n component session}, ¬ (Pool.ofPushes holdings pushes).Engaged n component session := by
    rintro n component session ⟨task, found, hstage, -⟩
    obtain ⟨p, -, rfl⟩ := List.mem_map.1 (List.mem_of_getElem? found)
    cases hstage
  exact
    { tracks := LockRegistry.tracks_empty
      distinct := List.nodup_nil
      present := fun n component => by
        constructor
        · exact fun h => absurd h List.not_mem_nil
        · rintro ⟨s, h⟩
          exact absurd h none
      abides := fun h => absurd h none
      waiting := fun h => absurd h none
      containers := fun _ _ => Nat.le_max_right _ _
      volumes := fun _ _ => Nat.le_max_right _ _ }

end Sound

/-- Every pool that can be reached from a sound one is sound. -/
theorem Reaches.sound (honest : engine.Honest) {first last : Pool}
    (reached : first.Reaches engine config last) (sound : first.Sound engine start who) :
    ∃ who', last.Sound engine start who' := by
  induction reached with
  | refl => exact ⟨who, sound⟩
  | step _ next ih =>
    obtain ⟨who', sound'⟩ := ih
    exact sound'.step honest next

/-- **Never a second one.** In every pool that pushes of any components can come to, an alias has at
most one container and a role at most one volume, unless it had more in the beginning, and then no more
than it had. -/
theorem at_most_one (honest : engine.Honest) {holdings : Holdings} {pushes : List (Push × UrlListing)}
    (reached : (Pool.ofPushes holdings pushes).Reaches engine config pool) :
    (∀ component aliasName, (pool.holdings.ofAlias component aliasName).length ≤
      max 1 (holdings.ofAlias component aliasName).length) ∧
    (∀ component (role : VolumeRole), (pool.holdings.volumesWith (role.labels component)).length ≤
      max 1 (holdings.volumesWith (role.labels component)).length) ∧
    ((∀ component aliasName, (holdings.ofAlias component aliasName).length ≤ 1) →
      (∀ component (role : VolumeRole), (holdings.volumesWith (role.labels component)).length ≤ 1) →
      (∀ component aliasName, (pool.holdings.ofAlias component aliasName).length ≤ 1) ∧
      (∀ component (role : VolumeRole),
        (pool.holdings.volumesWith (role.labels component)).length ≤ 1)) := by
  obtain ⟨who, sound⟩ := reached.sound honest (Sound.ofPushes holdings pushes)
  refine ⟨sound.containers, sound.volumes, fun hcontainers hvolumes => ⟨?_, ?_⟩⟩
  · intro component aliasName
    have h := sound.containers component aliasName
    rwa [Nat.max_eq_left (hcontainers component aliasName)] at h
  · intro component role
    have h := sound.volumes component role
    rwa [Nat.max_eq_left (hvolumes component role)] at h

/-! ## Two pushes of one component -/

/-- Two pushes of one component. -/
def sample : Pool := ofPushes ⟨[], []⟩ [(.sample, Push.sampleListing), (.sample, Push.sampleListing)]

/-- The volume that the first of them makes. -/
def sampleVolume : Volume := MemoryEngine.empty.nextVolume (VolumeRole.projectSource.stem "shop")
  (VolumeRole.projectSource.labels "shop")

/-- The first push finds no volume, makes one and is dropped before it is told; the second push, which
has waited for the lock, finds that volume. -/
theorem reaches_sample :
    ∃ pool, sample.Reaches MemoryEngine.faulty .standard pool ∧ pool.holdings = ⟨[sampleVolume], []⟩ := by
  have h₁ := Reaches.refl.step (@Step.begin MemoryEngine.faulty .standard sample 0 _ rfl rfl rfl)
  have h₂ := h₁.step (@Step.begin _ _ _ 1 _ rfl rfl rfl)
  have h₃ := h₂.step (@Step.call _ _ _ 0 _ _ (.listVolumes (VolumeRole.projectSource.labels "shop")) _
    (.reply []) ⟨[], []⟩ rfl rfl rfl rfl
    ⟨.empty, MemoryEngine.numbered_empty, rfl, .served 0, trivial, rfl, rfl⟩)
  have h₄ := h₃.step (@Step.dropCalling _ _ _ 0 _ _
    (.createVolume (VolumeRole.projectSource.stem "shop") (VolumeRole.projectSource.labels "shop")) _
    .expired ⟨[sampleVolume], []⟩ rfl rfl rfl rfl
    ⟨.empty, MemoryEngine.numbered_empty, rfl, .expired true, trivial, rfl, rfl⟩)
  have h₅ := h₄.step (@Step.call _ _ _ 1 _ _ (.listVolumes (VolumeRole.projectSource.labels "shop")) _
    (.reply [sampleVolume]) ⟨[sampleVolume], []⟩ rfl rfl rfl rfl
    ⟨⟨[sampleVolume], [], 1, 0⟩, fun _ _ _ h => absurd h List.not_mem_nil, rfl, .served 0, trivial,
      rfl, rfl⟩)
  exact ⟨_, h₅, rfl⟩

/-- There is one volume then, and no second one. -/
theorem at_most_one_sample :
    ∃ pool, sample.Reaches MemoryEngine.faulty .standard pool ∧ pool.holdings = ⟨[sampleVolume], []⟩ ∧
      ((∀ component aliasName, (pool.holdings.ofAlias component aliasName).length ≤ 1) ∧
        (∀ component (role : VolumeRole),
          (pool.holdings.volumesWith (role.labels component)).length ≤ 1)) := by
  obtain ⟨pool, hreaches, hholdings⟩ := reaches_sample
  obtain ⟨-, -, hone⟩ := at_most_one (MemoryEngine.honest_conduct _) hreaches
  exact ⟨pool, hreaches, hholdings, hone (fun _ _ => Nat.zero_le _) (fun _ _ => Nat.zero_le _)⟩

end Pool

end DevfilePush
