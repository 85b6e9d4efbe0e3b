import DevfilePush.Proofs.Pool.Unique
import DevfilePush.Proofs.Push.Success

/-!
# No history stands in the way of a push

Whatever became of the pushes so far, on an engine that held nothing in the beginning no role has come to
have two volumes and no alias two containers, and a push that has ended or was dropped is not at its lock
any more. So the next push of any component gets its lock at once, and if it is met without faults, it
succeeds.

## Main statements

* `Pool.Reaches.single`, `Pool.Reaches.distinctIds`: what every history leaves.
* `Pool.owns_enter`: a push that nobody keeps waiting owns its lock.
* `Pool.recovers`: a push after any history.
-/

namespace DevfilePush

namespace Pool

variable {engine serving : Conduct} {config : ValidConfig} {pool : Pool} {n : Nat} {task : PushTask}
  {pushes : List (Push × UrlListing)}

/-! ## What a history leaves -/

/-- Pushes never make a second one where there was nothing. -/
theorem Reaches.single (honest : engine.Honest)
    (reached : (ofPushes ⟨[], []⟩ pushes).Reaches engine config pool) : pool.holdings.Single := by
  obtain ⟨who, sound⟩ := reached.sound honest (Sound.ofPushes ⟨[], []⟩ pushes)
  exact ⟨sound.containers, sound.volumes⟩

/-- Ids that an engine keeps distinct stay so, whatever the pushes do. -/
theorem Reaches.distinctIds (keepsIds : engine.KeepsIds) {first : Pool}
    (ids : first.holdings.DistinctIds) (reached : first.Reaches engine config pool) :
    pool.holdings.DistinctIds := by
  induction reached with
  | refl => exact ids
  | step _ next ih =>
    cases next with
    | call _ _ _ _ meets | dropCalling _ _ _ _ meets => exact keepsIds meets ih
    | refuse | begin | finish | forget | drop => exact ih

/-- A push owns its lock as soon as it asks for it, if no other push of its component is engaged. -/
theorem owns_enter (honest : engine.Honest) {start : Holdings}
    (reached : (ofPushes start pushes).Reaches engine config pool)
    (found : pool.tasks[n]? = some task) (idle : task.stage = .idle)
    (alone : ∀ m session, ¬ pool.Engaged m task.push.component session) :
    (pool.enter n task (task.push.session config task.listing)).locks.owns n = true := by
  obtain ⟨who, sound⟩ := reached.sound honest (Sound.ofPushes start pushes)
  have entered := sound.enter found idle (Push.session_careful honest task.push config task.listing)
  have hnobody : who.find? (fun a => a.2 = task.push.component) = none := by
    rw [List.find?_eq_none]
    rintro ⟨m, name⟩ hm hname
    obtain rfl : name = task.push.component := by simpa using hname
    obtain ⟨session, engaged⟩ := (sound.present m _).1 hm
    exact alone m session engaged
  refine (entered.tracks.owns_iff entered.distinct).2 ⟨task.push.component, ?_⟩
  rw [Attendance.first?, List.find?_append, hnobody]
  simp

/-- **Recovery.** Pushes of any components began on an engine that held nothing, they were met in any
way, failed, expired or were dropped in whatever order. A push that has not begun yet, and whose
component nobody is pushing any more, owns its lock as soon as it asks for it; and if its checks pass, its
URLs load and none of them is stale, it has a run on an engine that serves, and every such run succeeds. -/
theorem recovers (honest : engine.Honest) (keepsIds : engine.KeepsIds) (serves : serving.Serves)
    (reached : (ofPushes ⟨[], []⟩ pushes).Reaches engine config pool)
    (found : pool.tasks[n]? = some task) (idle : task.stage = .idle)
    (alone : ∀ m session, ¬ pool.Engaged m task.push.component session)
    (passed : task.push.check = .ok ()) {urls : List UrlRecord} (loaded : task.listing.urls = .ok urls)
    (mapped : ∀ c ∈ task.push.components, ∃ ports,
      PortMap.ofUrls task.push.component c urls config.config.hostIp = .ok ports) :
    (pool.enter n task (task.push.session config task.listing)).locks.owns n = true ∧
      (∃ trace report after, (task.push.script config task.listing).Runs serving pool.holdings trace
        (.ok report) after) ∧
      ∀ trace verdict after, (task.push.script config task.listing).Runs serving pool.holdings trace
        verdict after → ∃ report, verdict = .ok report := by
  have ids : pool.holdings.DistinctIds := by
    refine reached.distinctIds keepsIds ?_
    exact List.nodup_nil
  have thrives : (task.push.script config task.listing).Thrives serving (fun _ _ => True)
      pool.holdings :=
    Push.script_thrives serves (reached.single honest) ids passed loaded mapped
  have hall : ∀ trace verdict after, (task.push.script config task.listing).Runs serving pool.holdings
      trace verdict after → ∃ report, verdict = .ok report := by
    intro trace verdict after run
    obtain ⟨report, hreport, -⟩ := thrives run
    exact ⟨report, hreport⟩
  refine ⟨owns_enter honest reached found idle alone, ?_, hall⟩
  obtain ⟨trace, verdict, after, run⟩ :=
    Script.exists_run serves.answers (task.push.script config task.listing) pool.holdings
  obtain ⟨report, rfl⟩ := hall trace verdict after run
  exact ⟨trace, report, after, run⟩

end Pool

/-! ## The engine in memory serves -/

namespace MemoryEngine

/-- If all calls are served and commands exit with 0, the engine in memory serves. -/
theorem serves_conduct : (conduct (· = .served 0)).Serves where
  honest := honest_conduct _
  keepsIds := keepsIds_conduct _
  faultless := by
    rintro before r answer after ⟨e, numbered, hbefore, fate, rfl, hanswer, hafter⟩ possible
    exact faultless_serving ⟨e, numbered, hbefore, _, ⟨0, rfl⟩, hanswer, hafter⟩ possible
  answers := answers_conduct rfl
  exits := by
    rintro before after id argv attach code ⟨e, -, -, fate, rfl, hanswer, -⟩
    exact (Answer.reply.inj hanswer).symm

end MemoryEngine

/-! ## A push after one that was dropped -/

namespace Pool

/-- The first of two pushes finds no volume and is dropped before it is told that one was made; the
second push has not begun. -/
theorem reaches_dropped :
    ∃ pool, sample.Reaches MemoryEngine.faulty .standard pool ∧ pool.holdings = ⟨[sampleVolume], []⟩ ∧
      pool.tasks = [⟨.sample, Push.sampleListing, .dropped⟩, ⟨.sample, Push.sampleListing, .idle⟩] := by
  have h₁ := Reaches.refl.step (@Step.begin MemoryEngine.faulty .standard sample 0 _ rfl rfl rfl)
  have h₂ := h₁.step (@Step.call _ _ _ 0 _ _ (.listVolumes (VolumeRole.projectSource.labels "shop")) _
    (.reply []) ⟨[], []⟩ rfl rfl rfl rfl
    ⟨.empty, MemoryEngine.numbered_empty, rfl, .served 0, trivial, rfl, rfl⟩)
  have h₃ := h₂.step (@Step.dropCalling _ _ _ 0 _ _
    (.createVolume (VolumeRole.projectSource.stem "shop") (VolumeRole.projectSource.labels "shop")) _
    .expired ⟨[sampleVolume], []⟩ rfl rfl rfl rfl
    ⟨.empty, MemoryEngine.numbered_empty, rfl, .expired true, trivial, rfl, rfl⟩)
  exact ⟨_, h₃, rfl, rfl⟩

/-- The second push succeeds then. -/
theorem recovers_sample :
    ∃ trace report after, (Push.sample.script .standard Push.sampleListing).Runs
      (MemoryEngine.conduct (· = .served 0)) ⟨[sampleVolume], []⟩ trace (.ok report) after := by
  obtain ⟨pool, reached, hholdings, htasks⟩ := reaches_dropped
  have found : pool.tasks[1]? = some ⟨.sample, Push.sampleListing, .idle⟩ := by
    rw [htasks]
    rfl
  have alone : ∀ m session, ¬ pool.Engaged m Push.sample.component session := by
    rintro m session ⟨task, htask, hstage, -⟩
    have hmem := List.mem_of_getElem? htask
    rw [htasks] at hmem
    simp only [List.mem_cons, List.not_mem_nil, or_false] at hmem
    rcases hmem with rfl | rfl <;> cases hstage
  have mapped : ∀ c ∈ Push.sample.components, ∃ ports, PortMap.ofUrls Push.sample.component c
      [⟨"front", 8080, 40000, none⟩, ⟨"back", 9090, 40001, some "web"⟩]
      Config.standard.hostIp = .ok ports := by
    intro c hc
    rw [List.mem_singleton.1 hc]
    exact ⟨_, rfl⟩
  obtain ⟨-, hruns, -⟩ := recovers (MemoryEngine.honest_conduct _) (MemoryEngine.keepsIds_conduct _)
    MemoryEngine.serves_conduct reached found rfl alone rfl rfl mapped
  rwa [hholdings] at hruns

end Pool

end DevfilePush
