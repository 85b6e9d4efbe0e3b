import DevfilePush.Proofs.Container.Rearranged
import DevfilePush.Proofs.Push.Convergence

/-!
# A push that follows another

Once a push has reconciled, the engine holds what it declares, and the same push has nothing left to do
but to look and to run its commands. The second push works its definitions out anew, from volumes that it
looks up instead of making and from lists that may stand in another order, so they are not the ones that
the first push worked out; but they agree with them, and agreement is all that is asked of a container.

## Main definitions

* `Push.Rearranges`: the same push with its declarations in another order.
* `Push.Reconciles`: a push that comes at least as far as its commands.

## Main statements

* `Push.reconciliation_finds`: the first part of a push that follows only looks.
* `Push.again_quiet`: what a push that follows does.
-/

namespace DevfilePush.Push

/-- The same push with variables, endpoints and mounts of its containers in another order. -/
structure Rearranges (p' p : Push) : Prop where
  component : p'.component = p.component
  directory : p'.directory = p.directory
  commands : p'.commands = p.commands
  components : List.Forall₂ (fun c' c => c'.Rearranges c) p'.components p.components

/-- A push passes its checks and reconciles these containers, and then ends in whatever way its second
part ends. -/
def Reconciles (p : Push) (config : ValidConfig) (listing : UrlListing) (engine : Conduct)
    (before : Holdings) (containers : ContainerReport) (after : Holdings) : Prop :=
  p.check = .ok () ∧ ∃ middle t₁ t₂ verdict,
    (p.reconciliation config listing).Runs engine before t₁ (.ok containers) middle ∧
    (p.execution config containers).Runs engine middle t₂ verdict after

variable {p p' : Push} {config : ValidConfig} {listing listing' : UrlListing}
  {engine : Conduct} {before after : Holdings} {trace : List Happening}

/-- A push that succeeds reconciles the containers that it reports. -/
theorem reconciles_of_runs_ok {report : PushReport}
    (run : (p.script config listing).Runs engine before trace (.ok report) after) :
    p.Reconciles config listing engine before report.containers after := by
  obtain ⟨hcheck, containers, middle, t₁, t₂, hfirst, hsecond, rfl⟩ := runs_script_ok.1 run
  rw [execution_report hsecond]
  exact ⟨hcheck, middle, t₁, t₂, _, hfirst, hsecond⟩

/-- What a push that reconciles leaves when it ends. -/
theorem Reconciles.settled (honest : engine.Honest) (keepsIds : engine.KeepsIds)
    (ids : before.DistinctIds) {containers : ContainerReport}
    (reconciles : p.Reconciles config listing engine before containers after) :
    after.DistinctIds ∧ ∃ urls names, listing.urls = .ok urls ∧
      p.Settled config urls names containers.records before after := by
  obtain ⟨-, middle, t₁, t₂, verdict, hfirst, hsecond⟩ := reconciles
  rw [execution_unchanged honest hsecond]
  obtain ⟨urls, names, -, -, hurls, -, settled⟩ := reconciliation_ok honest keepsIds ids hfirst
  exact ⟨hfirst.distinctIds keepsIds ids, urls, names, hurls, settled⟩

/-! ## Checks -/

/-- Two lists that follow a third one follow each other. -/
theorem forall₂_comp {α β γ : Type} {R : α → β → Prop} {S : β → γ → Prop} {T : α → γ → Prop}
    (h : ∀ a b c, R a b → S b c → T a c) {as : List α} {bs : List β} {cs : List γ}
    (hab : List.Forall₂ R as bs) (hbc : List.Forall₂ S bs cs) : List.Forall₂ T as cs := by
  induction hab generalizing cs with
  | nil =>
    cases hbc
    exact .nil
  | cons hr _ ih =>
    cases hbc with
    | cons hs hrest => exact .cons (h _ _ _ hr hs) (ih hrest)

namespace Rearranges

theorem context (same : p'.Rearranges p) : p'.context config = p.context config := by
  rw [Push.context, Push.context, same.component, same.directory]

theorem aliases (same : p'.Rearranges p) :
    p'.components.map (·.aliasName) = p.components.map (·.aliasName) := by
  rw [← List.forall₂_eq_eq_eq, List.forall₂_map_left_iff, List.forall₂_map_right_iff]
  exact same.components.imp fun _ _ hc => hc.aliasName

theorem storageNames (same : p'.Rearranges p) (k : String) :
    k ∈ DevfilePush.storageNames p'.components ↔ k ∈ DevfilePush.storageNames p.components := by
  rw [mem_storageNames, mem_storageNames]
  have hcomponents := same.components
  generalize p'.components = components', p.components = components at hcomponents
  induction hcomponents with
  | nil => rfl
  | cons hc _ ih =>
    rw [List.exists_mem_cons_iff, List.exists_mem_cons_iff]
    exact or_congr (by simp only [hc.volumeMounts.mem_iff]) ih

theorem wellFormed (same : p'.Rearranges p) (formed : ∀ c ∈ p.components, c.WellFormed) :
    ∀ c ∈ p'.components, c.WellFormed := by
  have hcomponents := same.components
  generalize p'.components = components', p.components = components at hcomponents formed ⊢
  induction hcomponents with
  | nil => exact formed
  | cons hc _ ih =>
    rw [List.forall_mem_cons] at formed ⊢
    exact ⟨hc.wellFormed formed.1, ih formed.2⟩

/-- The same push in another order passes its checks too. -/
theorem check (same : p'.Rearranges p) (passed : p.check = .ok ()) : p'.check = .ok () := by
  rw [check_ok_iff, checkComponents_ok_iff, CommandSelection.checkTargets_ok_iff] at passed ⊢
  obtain ⟨⟨hnonempty, hformed, hnodup⟩, hcommands, htargets⟩ := passed
  refine ⟨⟨?_, same.wellFormed hformed, same.aliases ▸ hnodup⟩, same.commands ▸ hcommands, ?_⟩
  · intro hempty
    have haliases := same.aliases
    rw [hempty, List.map_nil, eq_comm, List.map_eq_nil_iff] at haliases
    exact hnonempty haliases
  · rw [same.commands]
    intro gc hgc
    have hmem : gc.2.component ∈ p'.components.map (·.aliasName) := by
      rw [same.aliases]
      exact List.mem_map.2 (htargets gc hgc)
    exact List.mem_map.1 hmem

end Rearranges

/-! ## The second push -/

section Second

variable {urls urls' : List UrlRecord} {names : VolumeNames} {records : List ContainerRecord}

/-- A container that is settled stands for the same declaration in another order. -/
theorem stands_rearranged (same : p'.Rearranges p) {c c' : Component} (hc : c'.Rearranges c)
    (reordered : UrlRecord.Reorders urls' urls c) {record : ContainerRecord} {desired : Definition}
    (hdesired : (p.blueprint urls names).desired (p.context config) c = .ok desired)
    (haliasName : record.aliasName = c.aliasName)
    (tells : record.Tells p.component desired before after) :
    ∃ desired', (p'.blueprint urls' names).desired (p'.context config) c' = .ok desired' ∧
      record.aliasName = c'.aliasName ∧ record.Stands p'.component desired' after := by
  have hrun : (p'.blueprint urls' names).runCommand = (p.blueprint urls names).runCommand :=
    congrArg CommandSelection.run same.commands
  have hvolumes : (p'.blueprint urls' names).volumes = (p.blueprint urls names).volumes := rfl
  have hagrees : ∃ desired', (p'.blueprint urls' names).desired (p'.context config) c' = .ok desired' ∧
      desired'.agrees desired = true := by
    rw [same.context]
    exact Blueprint.desired_rearranged hc reordered hvolumes hrun hdesired
  obtain ⟨desired', hdesired', hagrees⟩ := hagrees
  rw [same.component, hc.aliasName]
  exact ⟨desired', hdesired', haliasName, tells.stands.trans hagrees⟩

/-- Where a push has settled its containers, they stand for the same push in another order. -/
theorem Settled.stand (settled : p.Settled config urls names records before after)
    (same : p'.Rearranges p) (reordered : ∀ c ∈ p.components, UrlRecord.Reorders urls' urls c) :
    List.Forall₂ (fun c' record => ∃ desired,
        (p'.blueprint urls' names).desired (p'.context config) c' = .ok desired ∧
        record.aliasName = c'.aliasName ∧ record.Stands p'.component desired after)
      p'.components records := by
  refine forall₂_comp ?_ same.components
    ((List.forall₂_and_left _ _).2 ⟨reordered, settled.containers⟩)
  rintro c' c record hc ⟨hreordered, desired, hdesired, haliasName, htells⟩
  exact stands_rearranged same hc hreordered hdesired haliasName htells

/-- The first part of the same push, where its containers are settled, only looks and keeps them all. -/
theorem reconciliation_finds (honest : engine.Honest) (faultless : engine.Faultless)
    (ids : after.DistinctIds) (settled : p.Settled config urls names records before after)
    (passed : p.check = .ok ()) (same : p'.Rearranges p) (hurls' : listing'.urls = .ok urls')
    (reordered : ∀ c ∈ p.components, UrlRecord.Reorders urls' urls c) :
    (p'.reconciliation config listing').Finds engine after ⟨records.map (·.again)⟩ := by
  have hheld : names.AreHeld after p'.component (DevfilePush.storageNames p'.components)
      p'.commands.run.isSome := by
    rw [same.component, same.commands]
    exact settled.volumes.congr_wanted same.storageNames
  have hvolumes : (resolveVolumes (p'.context config) p'.components p'.commands.run.isSome).Finds
      engine after names := resolveVolumes_finds honest faultless hheld
  have hrealize : ((p'.blueprint urls' names).realize (p'.context config)).Finds engine after
      ⟨records.map (·.again)⟩ :=
    Blueprint.realize_finds honest faultless ids (check_ok_iff.1 (same.check passed)).1
      (settled.stand same reordered)
  have hload : (Script.ofExcept (listing'.urls.mapError fun e =>
      PushError.urlsUnavailable p'.component e.message)).Finds engine after urls' :=
    Script.finds_ofExcept (Except.mapError_ok_iff.2 hurls')
  exact (Script.finds_note _).bind ((Script.finds_notes _).bind
    (hload.bind (hvolumes.bind hrealize)))

/-- Where a push has settled its containers, each of its commands has its container in a listing of
them. -/
theorem Settled.targets (settled : p.Settled config urls names records before after)
    (passed : p.check = .ok ()) {live : List ListedContainer}
    (listed : live.Perm ((after.containersWith (Labels.ofComponent p.component)).map (·.live))) :
    ∀ gc ∈ p.commands.commands, ∃ container,
      gc.2.target (p.context config) live = .ok container := by
  intro gc hgc
  obtain ⟨c, hc, halias⟩ := CommandSelection.checkTargets_ok_iff.1 (check_ok_iff.1 passed).2.2 gc hgc
  obtain ⟨record, -, desired, -, haliasName, tells⟩ := exists_of_forall₂ settled.containers c hc
  obtain ⟨r, hr, -⟩ := tells.running
  have hmem : r ∈ after.ofAlias p.component record.aliasName := hr ▸ List.mem_singleton_self r
  obtain ⟨hheld, hcomponent, hlabel⟩ := Holdings.mem_ofAlias.1 hmem
  refine Command.exists_target ⟨r.live, listed.mem_iff.2 (List.mem_map_of_mem ?_), ?_⟩
  · rw [Holdings.containersWith, List.mem_filter, Labels.ofComponent_selects_iff]
    exact ⟨hheld, hcomponent⟩
  · rw [ListedContainer.alias?, hlabel, haliasName]
    exact congrArg some halias

/-- The second part of the same push, where all containers were kept, executes the words for kept
containers, and only a command that fails keeps it from its end. -/
theorem execution_kept (honest : engine.Honest) (faultless : engine.Faultless)
    (settled : p.Settled config urls names records before after) (passed : p.check = .ok ())
    (same : p'.Rearranges p) {verdict : Except PushError PushReport} {last : Holdings}
    (run : (p'.execution config ⟨records.map (·.again)⟩).Runs engine after trace verdict last) :
    Happening.executed trace <+: p.commands.wordsKept config.config.supervisor ∧
      ((∀ x ∈ trace, x.WentWell) → ∃ report, verdict = .ok report ∧
        report.containers = ⟨records.map (·.again)⟩) := by
  have hkept : ContainerReport.allKept ⟨records.map (·.again)⟩ = true := by
    simp [ContainerReport.allKept, ContainerRecord.again, ContainerChange.isNew]
  have hlisted : ∃ reply after',
      after.Grants (.listContainers (Labels.ofComponent p.component)) reply after' :=
    ⟨_, after, .refl _, rfl⟩
  have hreports : ∀ report, verdict = .ok report → report.containers = ⟨records.map (·.again)⟩ := by
    rintro report rfl
    exact execution_report run
  unfold execution at run
  rw [same.context, same.commands, hkept] at run
  rcases Script.runs_bind_iff.1 run with ⟨error, rfl, hlist⟩ | ⟨live, m, t₁, t₂, hlist, hrest, rfl⟩
  · obtain ⟨live, hlive, -⟩ := Script.runs_ask_granted honest faultless hlisted hlist
    cases hlive
  obtain ⟨live', hlive, ⟨listed, rfl⟩, rfl⟩ :=
    Script.runs_ask_granted honest faultless hlisted hlist
  obtain rfl := Except.ok.inj hlive
  have htargets : ∀ gc ∈ p.commands.commands, ∃ container,
      gc.2.target (p.context config) live = .ok container := settled.targets passed listed
  constructor
  · have hexecutes : (CommandSelection.runAll (p.context config) p.commands true live).Executes
        (p.commands.wordsKept config.config.supervisor) :=
      CommandSelection.words_kept htargets ▸ CommandSelection.runAll_executes
    -- the listing executes nothing
    change Happening.executed t₂ <+: _
    exact (hexecutes.told _ _).beginning hrest
  · intro well
    have hcompletes : (CommandSelection.runAll (p.context config) p.commands true live).Completes :=
      CommandSelection.runAll_completes (check_ok_iff.1 passed).2.1 htargets
    obtain ⟨report, hreport⟩ := hcompletes.told _ _ hrest fun x hx =>
      well x (List.mem_append_right _ hx)
    exact ⟨report, hreport, hreports report hreport⟩

/-- **Again.** When a push has reconciled and ended in whatever way, the same push, its declarations and
URLs in the same order or another, makes and removes nothing on an engine without faults. It executes
the words for kept containers in order, among which the init command's are not; and unless one of them
fails, it succeeds and reports every container as kept, by the ids that the first push reported. -/
theorem again_quiet {first second : Conduct} (honest : first.Honest) (keepsIds : first.KeepsIds)
    (ids : before.DistinctIds) {containers : ContainerReport}
    (reconciles : p.Reconciles config listing first before containers after)
    (honest' : second.Honest) (faultless : second.Faultless) (same : p'.Rearranges p)
    (hurls : listing.urls = .ok urls) (hurls' : listing'.urls = .ok urls')
    (reordered : ∀ c ∈ p.components, UrlRecord.Reorders urls' urls c)
    {verdict : Except PushError PushReport} {last : Holdings}
    (run : (p'.script config listing').Runs second after trace verdict last) :
    last = after ∧
      (∀ r ∈ trace.filterMap (·.call?), r.alters = false) ∧
      Happening.executed trace <+: p.commands.wordsKept config.config.supervisor ∧
      ((∀ x ∈ trace, x.WentWell) → ∃ report, verdict = .ok report ∧
        report.containers = ⟨containers.records.map (·.again)⟩) := by
  obtain ⟨hids, urls₁, names, hurls₁, settled⟩ := reconciles.settled honest keepsIds ids
  obtain rfl : urls = urls₁ := Except.ok.inj (hurls.symm.trans hurls₁)
  have passed : p.check = .ok () := reconciles.1
  have hfinds : (p'.reconciliation config listing').Finds second after
      ⟨containers.records.map (·.again)⟩ :=
    reconciliation_finds honest' faultless hids settled passed same hurls' reordered
  have hrun : (p'.session config listing').Runs second after trace verdict last := by
    unfold script at run
    rw [same.check passed] at run
    exact run
  rcases Script.runs_bind_iff.1 hrun with ⟨error, rfl, hfirst⟩ | ⟨r, m, t₁, t₂, hfirst, hsecond, rfl⟩
  · cases (hfinds hfirst).1
  obtain ⟨hr, rfl, hlooks⟩ := hfinds hfirst
  obtain rfl := Except.ok.inj hr
  obtain ⟨hexecuted, hreport⟩ :=
    execution_kept honest' faultless settled passed same hsecond
  have hquiet : ∀ r ∈ t₁.filterMap (·.call?), r.alters = false := fun r hr =>
    Request.alters_of_looks (hlooks r hr)
  have hnone : Happening.executed t₁ = [] :=
    List.filterMap_eq_nil_iff.2 fun r hr => Request.words?_of_looks (hlooks r hr)
  refine ⟨execution_unchanged honest' hsecond, ?_, ?_, ?_⟩
  · intro r hr
    rw [List.filterMap_append, List.mem_append] at hr
    exact hr.elim (hquiet r) (hsecond.requests (execution_asks _) r)
  · rw [Happening.executed_append, hnone, List.nil_append]
    exact hexecuted
  · exact fun well => hreport fun x hx => well x (List.mem_append_right t₁ hx)

end Second

/-! ## A second push -/

/-- The push of one container with all its declarations in another order. -/
def sampleRearranged : Push :=
  { sample with
    components :=
      [{ sampleComponent with
        env := sampleComponent.env.reverse
        endpoints := sampleComponent.endpoints.reverse
        volumeMounts := sampleComponent.volumeMounts.reverse }] }

/-- The URLs that lead to the container, in another order. -/
def sampleReordered : UrlListing :=
  ⟨[], .ok [⟨"back", 9090, 40001, some "web"⟩, ⟨"front", 8080, 40000, none⟩]⟩

/-- The course of the second push, where the first one left the engine. -/
def sampleAgain : Course PushReport :=
  (sampleRearranged.script .standard sampleReordered).follow sampleCourse.engine []

theorem sampleRearranged_rearranges : sampleRearranged.Rearranges sample where
  component := rfl
  directory := rfl
  commands := rfl
  components :=
    .cons ⟨rfl, rfl, rfl, rfl, rfl, List.reverse_perm _, List.reverse_perm _, List.reverse_perm _⟩ .nil

/-- The second push makes nothing, runs only the build command and keeps the container. -/
theorem again_quiet_sample :
    sampleAgain.engine.holdings = sampleCourse.engine.holdings ∧
      (∀ r ∈ sampleAgain.happenings.filterMap (·.call?), r.alters = false) ∧
      Happening.executed sampleAgain.happenings <+: [["/bin/sh", "-c", "make"]] ∧
      ((∀ x ∈ sampleAgain.happenings, x.WentWell) → ∃ report, sampleAgain.verdict = .ok report ∧
        report.containers = ⟨[⟨"web", "container-1", .kept⟩]⟩) := by
  have hsecond : (sampleRearranged.script .standard sampleReordered).Runs
      MemoryEngine.serving
      sampleCourse.engine.holdings sampleAgain.happenings sampleAgain.verdict
      sampleAgain.engine.holdings :=
    MemoryEngine.runs_follow ⟨0, rfl⟩ (MemoryEngine.numbered_empty.follow _ _) (by simp) _
  exact again_quiet (MemoryEngine.honest_conduct _) (MemoryEngine.keepsIds_conduct _) (by decide)
    (reconciles_of_runs_ok runs_sample) (MemoryEngine.honest_conduct _) MemoryEngine.faultless_serving
    sampleRearranged_rearranges rfl rfl
    (fun c hc => .inr ⟨List.Perm.swap _ _ _, by
      rw [List.mem_singleton.1 hc]
      decide⟩)
    hsecond

end DevfilePush.Push
