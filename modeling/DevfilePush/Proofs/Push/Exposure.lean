import DevfilePush.Proofs.Container.Exposure
import DevfilePush.Proofs.Push.Convergence
import DevfilePush.Proofs.Push.Parts
import DevfilePush.Proofs.Volume.Supply

/-!
# What a push exposes

Every container that a push asks for, whatever it is answered and however it ends, is one of those that
it declares, and it is exposed on a loopback address only, at declared ports only, and as the URLs that
were loaded ask for. This is a property of the calls that the push can make, so it holds whatever the
engine does and whoever else uses it.

## Main definitions

* `Push.Exposing`: a definition that exposes a declared container.

## Main statements

* `Push.script_exposing`: the containers that a push can ask for.
* `Push.exposes_declared`: those that it asks for in a run.
-/

namespace DevfilePush.Push

variable {p : Push} {config : ValidConfig} {listing : UrlListing}

/-- A definition carries the labels of a declared container and exposes it, at the loopback address of
the configuration, as the loaded URLs ask for. -/
structure Exposing (p : Push) (config : ValidConfig) (listing : UrlListing) (d : Definition) : Prop where
  address : ∃ address, Address.ofText? config.config.hostIp = some address ∧ address.Local
  declared : ∃ urls, listing.urls = .ok urls ∧ ∃ c ∈ p.components,
    (Labels.ofContainer p.component c.aliasName).selects d.config.labels = true ∧
    d.Exposes c urls config.config.hostIp

/-- What is asked for to bring a declared container to its definition exposes it. -/
theorem exposing_of_worksFor {urls : List UrlRecord} {names : VolumeNames} {c : Component}
    {desired : Definition} (loaded : listing.urls = .ok urls) (hc : c ∈ p.components)
    (hdesired : (p.blueprint urls names).desired (p.context config) c = .ok desired) {r : Request}
    (hr : r.WorksFor desired) : ∀ d, r = .createContainer d → p.Exposing config listing d := by
  rintro d rfl
  obtain rfl : d = desired := hr
  exact ⟨config.exists_local, urls, loaded, c, hc, (Blueprint.selects_desired hdesired).2 ⟨rfl, rfl⟩,
    Blueprint.desired_exposes hdesired⟩

/-- The containers that the first part of a push can ask for expose declared ones. -/
theorem reconciliation_exposing :
    (p.reconciliation config listing).Asks
      fun r => ∀ d, r = .createContainer d → p.Exposing config listing d := by
  have hvolumes : (resolveVolumes (p.context config) p.components p.commands.run.isSome).Asks
      fun r => ∀ d, r = .createContainer d → p.Exposing config listing d := by
    refine (resolveVolumes_asks _ _).mono ?_
    rintro r hr d rfl
    cases hr
  refine (Script.asks_note _).bind fun _ => (Script.closed_asks.notes _).bind fun _ =>
    Script.closed_asks.plain.ofExcept_bind fun urls hurls => hvolumes.bind fun names =>
      Script.closed_asks.realize fun c hc desired hdesired r hr => ?_
  have loaded : listing.urls = .ok urls := Except.mapError_ok_iff.1 hurls
  exact Script.asks_ask (exposing_of_worksFor loaded hc hdesired hr) _ _

/-- **Exposure.** The containers that a push can ask for expose declared ones. -/
theorem script_exposing :
    (p.script config listing).Asks
      fun r => ∀ d, r = .createContainer d → p.Exposing config listing d := by
  refine (Script.closed_asks.plain.ofExcept _).bind fun _ => reconciliation_exposing.bind fun containers =>
    (execution_asks containers).mono ?_
  rintro r hr d rfl
  cases hr

variable {engine : Conduct} {before after : Holdings} {trace : List Happening}
  {verdict : Except PushError PushReport} {d : Definition}

/-- Whatever an engine does, every container that is asked for in a run exposes a declared one: it is
bound on the configured loopback address only, each of its bindings leads to a declared port that a
loaded URL names which is not meant for another container, no container port is bound twice, and exactly
the bound ports are labelled with the names of these URLs. -/
theorem exposes_declared (run : (p.script config listing).Runs engine before trace verdict after)
    (created : .createContainer d ∈ trace.filterMap (·.call?)) :
    (∃ address, Address.ofText? config.config.hostIp = some address ∧ address.Local) ∧
      ∃ urls, listing.urls = .ok urls ∧ ∃ c ∈ p.components,
        (Labels.ofContainer p.component c.aliasName).selects d.config.labels = true ∧
        d.Exposes c urls config.config.hostIp := by
  have hexposing := run.requests script_exposing _ created d rfl
  exact ⟨hexposing.address, hexposing.declared⟩

/-! ## A push with URLs of all kinds -/

/-- URLs of which two lead to one port, one is not exposed and one is meant for another container. -/
def sampleCrowded : UrlListing :=
  ⟨[], .ok [⟨"front", 8080, 40000, none⟩, ⟨"idle", 7777, 0, none⟩, ⟨"store", 5432, 40003, some "db"⟩,
    ⟨"again", 8080, 40002, some "web"⟩]⟩

/-- The course of a push with these URLs on an engine that holds nothing. -/
def sampleCrowdedCourse : Course PushReport := (sample.script .standard sampleCrowded).follow .empty []

/-- The definition of the container that is asked for in that course. -/
def sampleCrowdedDefinition : Definition :=
  (sampleCrowdedCourse.engine.containers.map (·.definition)).headD default

/-- The container is bound at one port, as the last of the URLs at that port asks for. -/
theorem exposes_declared_sample :
    sampleCrowdedDefinition.host.portBindings = [⟨8080, "127.0.0.1", 40002⟩] ∧
      sampleCrowdedDefinition.config.labels.get? "8080" = some "again" ∧
      sampleCrowdedDefinition.config.labels.get? "7777" = none ∧
      ∃ urls, sampleCrowded.urls = .ok urls ∧ ∃ c ∈ sample.components,
        (Labels.ofContainer sample.component c.aliasName).selects
          sampleCrowdedDefinition.config.labels = true ∧
        sampleCrowdedDefinition.Exposes c urls "127.0.0.1" := by
  have hrun : (sample.script .standard sampleCrowded).Runs MemoryEngine.faulty ⟨[], []⟩
      sampleCrowdedCourse.happenings sampleCrowdedCourse.verdict
      sampleCrowdedCourse.engine.holdings :=
    MemoryEngine.runs_follow_faulty MemoryEngine.numbered_empty rfl
  have hcreated : .createContainer sampleCrowdedDefinition ∈
      sampleCrowdedCourse.happenings.filterMap (·.call?) := by decide
  exact ⟨by decide, by decide, by decide, (exposes_declared hrun hcreated).2⟩

end DevfilePush.Push
