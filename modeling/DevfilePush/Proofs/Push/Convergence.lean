import DevfilePush.Proofs.Command.Words
import DevfilePush.Proofs.Container.Realize
import DevfilePush.Proofs.Engine.Memory
import DevfilePush.Proofs.Push.Phases
import DevfilePush.Proofs.Volume.Resolve

/-!
# A push converges

A push that succeeds leaves what was declared: each role that it needs has its only volume, each alias
its only container, and that container agrees with the definition that is built from these very volumes.
Its report tells in declaration order how each alias came to its container. The push is taken in its two
parts: the first one reconciles, the second one only lists and executes.

## Main definitions

* `Push.Settled`: what a push leaves of volumes and containers, and what its records tell.

## Main statements

* `Push.reconciliation_ok`: what the first part leaves.
* `Push.execution_unchanged`: the second part changes nothing.
* `Push.converges`: what a push that succeeds leaves.
-/

namespace DevfilePush.Push

variable {p : Push} {config : ValidConfig} {listing : UrlListing} {engine : Conduct}
  {before after : Holdings} {trace : List Happening}

/-- What a push leaves when it has reconciled with some URLs and volume names: these are the names of
the only volumes of their roles, and each record in turn tells of its own declared container. -/
structure Settled (p : Push) (config : ValidConfig) (urls : List UrlRecord) (names : VolumeNames)
    (records : List ContainerRecord) (before after : Holdings) : Prop where
  volumes : names.AreHeld after p.component (storageNames p.components) p.commands.run.isSome
  containers : List.Forall₂ (fun c record => ∃ desired,
      (p.blueprint urls names).desired (p.context config) c = .ok desired ∧
      record.aliasName = c.aliasName ∧ record.Tells p.component desired before after)
    p.components records

/-- The first part of a push settles its containers with the names that it resolves its volumes to. -/
theorem reconciliation_ok (honest : engine.Honest) (keepsIds : engine.KeepsIds)
    (ids : before.DistinctIds) {containers : ContainerReport}
    (run : (p.reconciliation config listing).Runs engine before trace (.ok containers) after) :
    ∃ urls names middle t, listing.urls = .ok urls ∧
      (resolveVolumes (p.context config) p.components p.commands.run.isSome).Runs engine before t
        (.ok names) middle ∧
      p.Settled config urls names containers.records before after := by
  obtain ⟨urls, names, middle, t, t', hurls, hresolve, hrealize, -⟩ := runs_reconciliation_ok run
  obtain ⟨hheld, hkeeps⟩ := resolveVolumes_ok honest hresolve
  obtain ⟨-, htells, hsame⟩ :=
    Blueprint.realize_ok honest keepsIds (hresolve.distinctIds keepsIds ids) hrealize
  refine ⟨urls, names, middle, t, hurls, hresolve, ?_, ?_⟩
  · exact hheld.congr hsame.volumes
  · -- resolving volumes touches no container, so the records tell since the push began
    refine htells.imp ?_
    rintro c record ⟨desired, hdesired, halias, htell⟩
    refine ⟨desired, hdesired, halias, htell.congr ?_ rfl⟩
    exact (Holdings.containersWith_congr hkeeps.containers _).symm

/-- The second part of a push only lists and executes. -/
theorem execution_asks (containers : ContainerReport) :
    (p.execution config containers).Asks fun r => r.alters = false := by
  have hlist : (Script.ask p.component config.config.callDeadline
      (.listContainers (Labels.ofComponent p.component))).Asks fun r => r.alters = false :=
    Script.asks_ask (by rfl) _ _
  have hcommands : ∀ live, (CommandSelection.runAll (p.context config) p.commands containers.allKept
      live).Asks fun r => r.alters = false :=
    fun live => CommandSelection.runAll_executes.asks.mono fun r => r.alters_of_executes
  exact hlist.bind fun live => (hcommands live).bind fun _ => (Script.asks_note _).bind fun _ => trivial

/-- The second part of a push, however it ends, leaves the engine as it was. -/
theorem execution_unchanged (honest : engine.Honest) {containers : ContainerReport}
    {verdict : Except PushError PushReport}
    (run : (p.execution config containers).Runs engine before trace verdict after) :
    after = before :=
  run.unchanged honest (execution_asks containers)

/-- A push that succeeds reports the containers that its first part reports. -/
theorem execution_report {containers : ContainerReport} {report : PushReport}
    (run : (p.execution config containers).Runs engine before trace (.ok report) after) :
    report.containers = containers := by
  obtain ⟨live, middle, own, -, -, hreport, -⟩ := runs_execution_ok run
  exact hreport

/-- A push passes its checks if its containers can be accepted and it has commands that all name one of
them. -/
theorem check_ok_iff :
    p.check = .ok () ↔ checkComponents p.components = .ok () ∧ p.commands.isEmpty = false ∧
      p.commands.checkTargets p.components = .ok () := by
  unfold check
  rw [Except.bind_ok_iff, Unique.exists_iff]
  refine and_congr_right fun _ => ?_
  by_cases hempty : p.commands.isEmpty
  · simp [hempty]
  · simp [hempty, Except.mapError_ok_iff]

/-- A push that succeeds has passed its checks, and both parts of it succeed. -/
theorem runs_script_ok {report : PushReport} :
    (p.script config listing).Runs engine before trace (.ok report) after ↔
      p.check = .ok () ∧ ∃ containers middle t₁ t₂,
        (p.reconciliation config listing).Runs engine before t₁ (.ok containers) middle ∧
        (p.execution config containers).Runs engine middle t₂ (.ok report) after ∧
        trace = t₁ ++ t₂ := by
  unfold script session
  rw [Script.runs_bind_ok]
  constructor
  · rintro ⟨⟨⟩, middle, t₁, t₂, hpassed, hsession, rfl⟩
    obtain ⟨rfl, hcheck, rfl⟩ := Script.runs_ofExcept.1 hpassed
    exact ⟨hcheck.symm, Script.runs_bind_ok.1 hsession⟩
  · rintro ⟨hcheck, h⟩
    exact ⟨(), before, [], trace, Script.runs_ofExcept.2 ⟨rfl, hcheck.symm, rfl⟩,
      Script.runs_bind_ok.2 h, rfl⟩

/-- **Convergence.** When a push succeeds, every role that it needs has its only volume, every declared
alias its only container, and that one agrees with the definition built from the volumes that this push
resolved; the records tell so in declaration order, and what they say was done is what the engine held
before called for. -/
theorem converges (honest : engine.Honest) (keepsIds : engine.KeepsIds) (ids : before.DistinctIds)
    {report : PushReport}
    (run : (p.script config listing).Runs engine before trace (.ok report) after) :
    ∃ urls names middle t, listing.urls = .ok urls ∧
      (resolveVolumes (p.context config) p.components p.commands.run.isSome).Runs engine before t
        (.ok names) middle ∧
      p.Settled config urls names report.containers.records before after := by
  obtain ⟨-, containers, middle, t₁, t₂, hfirst, hsecond, rfl⟩ := runs_script_ok.1 run
  rw [execution_unchanged honest hsecond, execution_report hsecond]
  exact reconciliation_ok honest keepsIds ids hfirst

/-! ## A first push -/

/-- A container with several variables, ports and volumes. -/
def sampleComponent : Component where
  aliasName := "web"
  image := "nginx"
  command := []
  args := []
  env := [⟨"MODE", "dev"⟩, ⟨"LEVEL", "1"⟩]
  endpoints := [⟨"http", 8080⟩, ⟨"admin", 9090⟩]
  volumeMounts := [⟨"cache", "/cache"⟩, ⟨"data", "/data"⟩]
  mountSources := true

/-- A push of one container, with an init and a build command. -/
def sample : Push where
  component := "shop"
  directory := "/shop"
  components := [sampleComponent]
  commands :=
    { init := some ⟨"setup", "web", "make deps", none, .init, true, none⟩
      build := some ⟨"compile", "web", "make", none, .build, true, none⟩
      run := none }

/-- URLs that lead to the container. -/
def sampleListing : UrlListing :=
  ⟨[], .ok [⟨"front", 8080, 40000, none⟩, ⟨"back", 9090, 40001, some "web"⟩]⟩

/-- The course of the push on an engine that holds nothing. -/
def sampleCourse : Course PushReport := (sample.script .standard sampleListing).follow .empty []

/-- What the push reports. -/
def sampleReport : PushReport :=
  ⟨⟨[⟨"web", "container-1", .created⟩]⟩,
    ⟨[⟨.init, "setup", .shell, true⟩, ⟨.build, "compile", .shell, true⟩]⟩⟩

theorem runs_sample :
    (sample.script .standard sampleListing).Runs MemoryEngine.faulty ⟨[], []⟩
      sampleCourse.happenings (.ok sampleReport) sampleCourse.engine.holdings :=
  MemoryEngine.runs_follow_faulty MemoryEngine.numbered_empty (by rfl)

/-- On an engine that holds nothing, the push succeeds and leaves what it declares. -/
theorem converges_sample :
    ∃ urls names middle t, sampleListing.urls = .ok urls ∧
      (resolveVolumes (sample.context .standard) sample.components false).Runs
        MemoryEngine.faulty ⟨[], []⟩ t (.ok names) middle ∧
      sample.Settled .standard urls names sampleReport.containers.records ⟨[], []⟩
        sampleCourse.engine.holdings :=
  converges (MemoryEngine.honest_conduct _) (MemoryEngine.keepsIds_conduct _) (by decide) runs_sample

end DevfilePush.Push
