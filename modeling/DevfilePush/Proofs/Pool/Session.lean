import DevfilePush.Proofs.Pool.Careful
import DevfilePush.Proofs.Push.Convergence

/-!
# A push is careful

A push makes a volume or a container only after a listing has shown that there is none, or after the
only one has been removed. Between the two it makes other calls and others work for other components,
but neither brings back what was not there, so what the listing showed is still true when it counts.

## Main statements

* `resolveVolume_careful`: a role's volume is looked up, then made.
* `Blueprint.realizeOne_careful`: a container is looked up, removed and made.
* `Push.session_careful`: the whole of a push.
-/

namespace DevfilePush

variable {engine : Conduct} {ctx : Context} {h : Holdings}

namespace Script

variable {component : String}

/-- A call that changes nothing may be made, and what its reply tells is told of what was there. -/
theorem abides_ask_unchanged (honest : engine.Honest) {name : String} {deadline : Duration}
    {request : Request} {Q : request.Reply → Holdings → Prop}
    (same : ∀ {k reply after}, Holdings.Grants k request reply after → after = k)
    (tells : ∀ {k reply l}, k.NoMore h component → Holdings.Grants k request reply k →
      l.NoMore k component → Q reply l) :
    (ask name deadline request).Abides engine component Q h := by
  apply abides_ask
  · intro k answer after _ meets
    have hsame : after = k := (honest.effect meets).elim id fun ⟨_, granted⟩ => same granted
    rw [hsame]
    exact Holdings.keeps_refl _ _
  · intro k reply after l hk meets hl
    have granted := honest.granted meets
    obtain rfl := same granted
    exact tells hk granted hl

end Script

/-! ## Volumes -/

/-- A volume is made only for a role that a listing has shown to have none. -/
theorem resolveVolume_careful (honest : engine.Honest) (role : VolumeRole) :
    (resolveVolume ctx role).Careful engine ctx.component := by
  intro h
  have hlook : (lookupVolume ctx role).Abides engine ctx.component
      (fun looked k => looked = .missing → k.volumesWith (role.labels ctx.component) = []) h := by
    have hlist : (Script.ask ctx.component ctx.config.callDeadline
        (.listVolumes (role.labels ctx.component))).Abides engine ctx.component
        (fun found k => found = ([] : List Volume) → k.volumesWith (role.labels ctx.component) = []) h := by
      refine Script.abides_ask_unchanged honest (fun granted => granted.2) ?_
      rintro k found l - ⟨hperm, -⟩ hl rfl
      have hnone : k.volumesWith (role.labels ctx.component) = [] := hperm.nil_eq.symm
      exact List.sublist_nil.1 (hnone ▸ hl.volumes role)
    refine hlist.bind fun found k hk l hl hmissing => ?_
    have hnone := hk (Lookup.ofMatches_eq_missing.1 hmissing)
    exact List.sublist_nil.1 (hnone ▸ hl.volumes role)
  refine hlook.bind fun looked k hk => ?_
  cases looked with
  | found volume => exact (Script.careful_note _).bind (fun _ => Script.careful_done _) k
  | conflict volumes => trivial
  | missing =>
    have hcreate : (Script.ask ctx.component ctx.config.callDeadline
        (.createVolume (role.stem ctx.component) (role.labels ctx.component))).Abides engine
        ctx.component (fun _ _ => True) k := by
      refine Script.abides_ask ?_ fun _ _ _ => trivial
      intro l answer after hl meets
      have hnone : l.volumesWith (role.labels ctx.component) = [] :=
        List.sublist_nil.1 (hk rfl ▸ hl.volumes role)
      rcases honest.effect meets with rfl | ⟨v, hlabels, rfl⟩
      · exact Holdings.keeps_refl _ _
      · exact Holdings.keeps_addVolume hlabels hnone
    exact hcreate.bind fun _ l _ => (Script.careful_note _).bind (fun _ => Script.careful_done _) l

theorem resolveStorage_careful (honest : engine.Honest) (resolved : SortedMap String String)
    (names : List String) : (resolveStorage ctx resolved names).Careful engine ctx.component := by
  induction names generalizing resolved with
  | nil => exact Script.careful_done _
  | cons name rest ih => exact (resolveVolume_careful honest _).bind fun _ => ih _

theorem resolveVolumes_careful (honest : engine.Honest) (components : List Component)
    (needsSupervisor : Bool) :
    (resolveVolumes ctx components needsSupervisor).Careful engine ctx.component := by
  have hsupervisor : (resolveSupervisor ctx needsSupervisor).Careful engine ctx.component := by
    cases needsSupervisor with
    | false => exact Script.careful_done _
    | true => exact (resolveVolume_careful honest _).bind fun _ => Script.careful_done _
  exact (resolveVolume_careful honest _).bind fun _ => hsupervisor.bind fun _ =>
    (resolveStorage_careful honest _ _).bind fun _ => Script.careful_done _

/-! ## Containers -/

variable {c : Component} {desired : Definition} {b : Blueprint}

/-- A container may be started for an alias that has none. -/
theorem startContainer_abides (honest : engine.Honest) (hdesired : b.desired ctx c = .ok desired)
    (none : h.ofAlias ctx.component c.aliasName = []) :
    (startContainer ctx c desired).Abides engine ctx.component (fun _ _ => True) h := by
  have hpull : (Script.ask ctx.component ctx.config.callDeadline (.pullImage c.image)).Abides engine
      ctx.component (fun _ k => k.ofAlias ctx.component c.aliasName = []) h := by
    refine Script.abides_ask_unchanged honest id ?_
    intro k reply l hk _ hl
    have hlh := (hl.trans hk).containers c.aliasName
    rw [none] at hlh
    exact List.sublist_nil.1 hlh
  have hcreate : ∀ k, k.ofAlias ctx.component c.aliasName = [] →
      (Script.ask ctx.component ctx.config.callDeadline (.createContainer desired)).Abides engine
        ctx.component (fun _ _ => True) k := by
    intro k hk
    refine Script.abides_ask ?_ fun _ _ _ => trivial
    intro l answer after hl meets
    have hnone : l.ofAlias ctx.component c.aliasName = [] :=
      List.sublist_nil.1 (hk ▸ hl.containers c.aliasName)
    rcases honest.effect meets with rfl | ⟨id, r, -, hlabels, -, rfl⟩
    · exact Holdings.keeps_refl _ _
    · refine Holdings.keeps_addContainer (fun other a => ?_) hnone
      rw [hlabels]
      exact Blueprint.selects_desired hdesired
  refine (hpull.step _).bind fun _ k hk => ((hcreate k hk).step _).bind fun _ l _ => ?_
  exact (Script.careful_note _).bind (fun _ => Script.careful_done _) l

/-- A container that may be the only one of its alias is kept, or removed before another is made. -/
theorem keepOrReplace_abides (honest : engine.Honest) (hdesired : b.desired ctx c = .ok desired)
    {live : ListedContainer} (only : ∀ r ∈ h.ofAlias ctx.component c.aliasName, r.live.id = live.id) :
    (keepOrReplace ctx c desired live).Abides engine ctx.component (fun _ _ => True) h := by
  have hinspect : (Script.ask ctx.component ctx.config.callDeadline
      (.inspectContainer live.id)).Abides engine ctx.component
      (fun _ k => ∀ r ∈ k.ofAlias ctx.component c.aliasName, r.live.id = live.id) h := by
    refine Script.abides_ask_unchanged honest (fun granted => granted.2) ?_
    intro k reply l hk _ hl r hr
    exact only r (((hl.trans hk).containers c.aliasName).subset hr)
  refine hinspect.bind fun actual k hk => ?_
  have hremove : ∀ l, (∀ r ∈ l.ofAlias ctx.component c.aliasName, r.live.id = live.id) →
      (Script.ask ctx.component ctx.config.callDeadline (.removeContainer live.id)).Abides engine
        ctx.component (fun _ m => m.ofAlias ctx.component c.aliasName = []) l := by
    intro l hl
    refine Script.abides_ask ?_ ?_
    · intro m answer after _ meets
      rcases honest.effect meets with rfl | ⟨reply, rfl⟩
      · exact Holdings.keeps_refl _ _
      · exact Holdings.NoMore.keeps (Holdings.noMore_removeContainer m live.id)
    · intro m reply after n hm meets hn
      obtain rfl := honest.granted meets
      have hgone : (m.removeContainer live.id).ofAlias ctx.component c.aliasName = [] := by
        rw [Holdings.ofAlias, Holdings.containersWith_removeContainer, ← Holdings.ofAlias,
          List.filter_eq_nil_iff]
        intro r hr
        simp [hl r ((hm.containers c.aliasName).subset hr)]
      exact List.sublist_nil.1 (hgone ▸ hn.containers c.aliasName)
  dsimp only
  split
  · exact (Script.careful_note _).bind (fun _ => Script.careful_done _) k
  · refine Script.Abides.bind (Q := fun _ l => ∀ r ∈ l.ofAlias ctx.component c.aliasName,
      r.live.id = live.id) (fun l hl r hr => hk r ((hl.containers c.aliasName).subset hr)) ?_
    intro _ l hl
    have hreplace := (hremove l hl).bind fun _ m hm => startContainer_abides honest hdesired hm
    exact (hreplace.step _).bind fun _ m _ => Script.careful_done _ m

namespace Blueprint

/-- A container is made only for an alias that has none, or has none any more. -/
theorem realizeOne_careful (honest : engine.Honest) (c : Component) :
    (b.realizeOne ctx c).Careful engine ctx.component := by
  refine (Script.careful_notes honest _).bind fun _ h => ?_
  cases hdesired : b.desired ctx c with
  | error e => trivial
  | ok desired =>
    have hlist : (Script.ask ctx.component ctx.config.callDeadline
        (.listContainers (Labels.ofContainer ctx.component c.aliasName))).Abides engine ctx.component
        (fun found k => ∀ r ∈ k.ofAlias ctx.component c.aliasName,
          r.live ∈ (found : List ListedContainer)) h := by
      refine Script.abides_ask_unchanged honest (fun granted => granted.2) ?_
      rintro k found l - ⟨hperm, -⟩ hl r hr
      exact hperm.mem_iff.2 (List.mem_map_of_mem ((hl.containers c.aliasName).subset hr))
    refine hlist.bind fun found k hk => ?_
    cases hm : Lookup.ofMatches found with
    | missing =>
      obtain rfl := Lookup.ofMatches_eq_missing.1 hm
      have hnone : k.ofAlias ctx.component c.aliasName = [] :=
        List.eq_nil_iff_forall_not_mem.2 fun r hr => List.not_mem_nil (hk r hr)
      exact (startContainer_abides honest hdesired hnone).bind fun _ l _ => Script.careful_done _ l
    | found live =>
      obtain rfl := Lookup.ofMatches_eq_found.1 hm
      refine keepOrReplace_abides honest hdesired fun r hr => ?_
      rw [List.mem_singleton.1 (hk r hr)]
    | conflict lives => trivial

theorem realizeEach_careful (honest : engine.Honest) (components : List Component) :
    (b.realizeEach ctx components).Careful engine ctx.component := by
  induction components with
  | nil => exact Script.careful_done _
  | cons c rest ih =>
    exact (realizeOne_careful honest c).bind fun _ => (Script.careful_note _).bind fun _ =>
      ih.bind fun _ => Script.careful_done _

theorem realize_careful (honest : engine.Honest) : (b.realize ctx).Careful engine ctx.component :=
  (Script.careful_ofExcept _).bind fun _ =>
    (realizeEach_careful honest _).bind fun _ => Script.careful_done _

end Blueprint

/-- **A push is careful.** Wherever it starts, whatever others do meanwhile and however its calls are
met, it gives nothing to other components and no second container or volume to its own. -/
theorem Push.session_careful (honest : engine.Honest) (p : Push) (config : ValidConfig)
    (listing : UrlListing) : (p.session config listing).Careful engine p.component := by
  have hvolumes : ∀ components needsSupervisor, (resolveVolumes (p.context config) components
      needsSupervisor).Careful engine (p.context config).component := resolveVolumes_careful honest
  have hrealize : ∀ urls names, ((p.blueprint urls names).realize (p.context config)).Careful engine
      (p.context config).component := fun _ _ => Blueprint.realize_careful honest
  have hreconciliation : (p.reconciliation config listing).Careful engine p.component :=
    (Script.careful_note _).bind fun _ => (Script.careful_notes honest _).bind fun _ =>
      (Script.careful_ofExcept _).bind fun urls =>
        (hvolumes _ _).bind fun names => hrealize urls names
  exact hreconciliation.bind fun containers => Script.careful_of_asks honest (execution_asks containers)

end DevfilePush
