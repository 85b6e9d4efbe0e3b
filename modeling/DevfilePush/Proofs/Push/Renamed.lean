import DevfilePush.Proofs.Command.Renamed
import DevfilePush.Proofs.Container.Renamed
import DevfilePush.Proofs.Push.Convergence

/-!
# A push under a renaming

A push does the same whatever the engine calls what it makes. Once its containers are reconciled, every
alias that it declares has one container, so that its commands run in the same containers in whichever
order these are listed.

## Main statements

* `Push.reconciliation_twins`, `Push.execution_twins`: the parts of a push.
* `Push.session_twins`, `Push.script_twins`: the whole of a push.
* `Push.undergoes_part`: a push keeps to its component's part of the engine.
-/

namespace DevfilePush.Push

variable {commandLine : ContainerConfig → String} {π : Renaming} {p : Push} {config : ValidConfig}
  {listing : UrlListing} {h : Holdings}

theorem reconciliation_twins :
    (p.reconciliation config listing).Twins commandLine π p.component
      (fun containers containers' _ => containers' = ⟨containers.records.map π.record⟩)
      (p.reconciliation config listing) h := by
  let load := listing.urls.mapError fun e => PushError.urlsUnavailable p.component e.message
  have hload : load = load.map id := by rw [Except.map_id, id]
  have hvolumes : ∀ k, (resolveVolumes (p.context config) p.components p.commands.run.isSome).Twins
      commandLine π p.component (fun names names' _ => π.MatchesNames names names')
      (resolveVolumes (p.context config) p.components p.commands.run.isSome) k :=
    fun _ => resolveVolumes_twins (p.context config) _ _
  refine Script.twins_note_bind (Script.twins_notes_bind
    (Script.twins_ofExcept_bind hload fun urls _ => (hvolumes h).bind ?_))
  intro names names' k same
  exact (p.blueprint urls names).realize_twins (p.context config) same

/-- Where every declared alias has one container, the commands run in the same containers. -/
theorem execution_twins (passed : p.check = .ok ())
    (single : ∀ c ∈ p.components, ∃ r, h.ofAlias p.component c.aliasName = [r])
    (containers : ContainerReport) :
    (p.execution config containers).Twins commandLine π p.component
      (fun report report' _ => report' = π.report report)
      (p.execution config ⟨containers.records.map π.record⟩) h := by
  have hlist : (Script.ask p.component config.config.callDeadline
      (.listContainers (Labels.ofComponent p.component))).Twins commandLine π p.component
      (fun live live' _ => List.Perm live' (List.map π.listed live) ∧
        List.Perm live ((h.containersWith (Labels.ofComponent p.component)).map (·.live)))
      (Script.ask p.component config.config.callDeadline
        (.listContainers (Labels.ofComponent p.component))) h := by
    have howner : (Labels.ofComponent p.component).owner? = some p.component := by
      simp [Labels.owner?, Labels.ofComponent]
    exact Script.twins_ask (r := .listContainers _) howner fun _ _ _ _ granted same =>
      ⟨same, granted.1⟩
  refine hlist.bind ?_
  rintro live live' k ⟨same, listed⟩
  have only : ∀ e ∈ p.commands.commands, ∀ x ∈ (live : List ListedContainer),
      ∀ y ∈ (live : List ListedContainer), x.alias? = some e.2.component →
        y.alias? = some e.2.component → x = y := by
    intro e he
    obtain ⟨c, hc, halias⟩ := CommandSelection.checkTargets_ok_iff.1 (check_ok_iff.1 passed).2.2 e he
    obtain ⟨r, hr⟩ := single c hc
    have hone : ∀ x ∈ (live : List ListedContainer), x.alias? = some e.2.component → x = r.live := by
      intro x hx hxalias
      obtain ⟨s, hs, rfl⟩ := List.mem_map.1 (listed.mem_iff.1 hx)
      rw [Holdings.containersWith, List.mem_filter, Labels.ofComponent_selects_iff] at hs
      have hmem : s ∈ h.ofAlias p.component c.aliasName :=
        Holdings.mem_ofAlias.2 ⟨hs.1, hs.2, hxalias.trans (congrArg some halias.symm)⟩
      rw [hr, List.mem_singleton] at hmem
      rw [hmem]
    intro x hx y hy hxalias hyalias
    rw [hone x hx hxalias, hone y hy hyalias]
  have hkept : ContainerReport.allKept ⟨containers.records.map π.record⟩ = containers.allKept := by
    simp only [ContainerReport.allKept, List.all_map]
    rfl
  rw [hkept]
  have hcommands : (CommandSelection.runAll (p.context config) p.commands containers.allKept
      live).Twins commandLine π p.component (fun report report' _ => report' = report)
      (CommandSelection.runAll (p.context config) p.commands containers.allKept live') k :=
    CommandSelection.runAll_twins _ same only
  refine hcommands.bind ?_
  rintro report report' l rfl
  exact Script.twins_note_bind rfl

/-- **A push by other names.** Wherever a component's part of the engine is renamed, a push of the
component makes the renamed calls, leaves the renamed and reports the renamed. -/
theorem session_twins (passed : p.check = .ok ()) (ids : h.DistinctIds) :
    (p.session config listing).Twins commandLine π p.component
      (fun report report' _ => report' = π.report report) (p.session config listing) h := by
  have hfirst : (p.reconciliation config listing).Twins commandLine π p.component
      (fun containers containers' after => containers' = ⟨containers.records.map π.record⟩ ∧
        ∀ c ∈ p.components, ∃ r, after.ofAlias p.component c.aliasName = [r])
      (p.reconciliation config listing) h := by
    refine reconciliation_twins.and_runs fun trace containers after run c hc => ?_
    obtain ⟨urls, names, middle, t, -, -, settled⟩ :=
      reconciliation_ok (Lot.honest_careful _) (Lot.keepsIds_careful _) ids run
    obtain ⟨record, -, desired, -, haliasName, tells⟩ := exists_of_forall₂ settled.containers c hc
    obtain ⟨r, hr, -⟩ := tells.running
    exact ⟨r, haliasName ▸ hr⟩
  refine hfirst.bind ?_
  rintro containers containers' k ⟨rfl, single⟩
  exact execution_twins passed single containers

/-- A push that passes its checks consists of what it does while it holds the lock. -/
theorem script_of_passed (passed : p.check = .ok ()) :
    p.script config listing = p.session config listing := by
  rw [script, passed]
  rfl

/-- A push that does not pass its checks only says so, by whatever names. -/
theorem script_twins (ids : h.DistinctIds) :
    (p.script config listing).Twins commandLine π p.component
      (fun report report' _ => report' = π.report report) (p.script config listing) h := by
  cases hcheck : p.check with
  | ok passed =>
    rw [script_of_passed hcheck]
    exact session_twins hcheck ids
  | error e =>
    rw [script, hcheck]
    exact rfl

/-! ## What a push keeps to -/

/-- A push that holds its lock keeps to its component. -/
theorem session_keepsTo (passed : p.check = .ok ()) (ids : h.DistinctIds) :
    (p.session config listing).KeepsTo commandLine p.component h :=
  (session_twins (π := ⟨.refl _, .refl _⟩) passed ids).keepsTo

/-- A push goes as if its component's part of the engine were all, and leaves what belongs to others as it
was. -/
theorem undergoes_part {lots : List Lot} {before after : Holdings}
    {verdict : Except PushError PushReport}
    (run : (p.script config listing).Undergoes commandLine lots before verdict after)
    (fresh : (before.ids ++ lots.map (·.id)).Nodup) :
    (p.script config listing).Undergoes commandLine lots (before.part (some p.component)) verdict
        (after.part (some p.component)) ∧
      ∀ owner ≠ some p.component, after.part owner = before.part owner := by
  have ids : (before.part (some p.component)).DistinctIds :=
    (Script.distinctIds_of_nodup fresh).part _
  exact run.part (script_twins (π := ⟨.refl _, .refl _⟩) ids).keepsTo fresh

end DevfilePush.Push
