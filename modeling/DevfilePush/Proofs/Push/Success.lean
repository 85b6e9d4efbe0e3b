import DevfilePush.Proofs.Pool.Careful
import DevfilePush.Proofs.Push.Errors
import DevfilePush.Proofs.Volume.Course

/-!
# When a push succeeds

Where no role has two volumes and no alias two containers, nothing stands in the way of a push: every
listing shows at most one, so that there is no conflict, and what is inspected was listed just before. An
engine without faults then grants every call, and the push comes to its end if its commands do. What else
the engine holds, and in which state earlier pushes left it, does not matter.

## Main definitions

* `Conduct.Serves`: an engine that grants whatever can be granted, and on which commands succeed.
* `Holdings.Single`: no role has two volumes and no alias two containers.
* `Script.Thrives`: every run of a script succeeds.

## Main statements

* `resolveVolumes_thrives`, `Blueprint.realize_thrives`: the parts of a push.
* `Push.script_thrives`: a push succeeds wherever nothing is there twice.
-/

namespace DevfilePush

/-- An engine that answers every call, grants whatever can be granted, and on which every command exits
with 0. -/
structure Conduct.Serves (engine : Conduct) : Prop where
  honest : engine.Honest
  keepsIds : engine.KeepsIds
  faultless : engine.Faultless
  answers : ∀ before r, ∃ answer after, engine before r answer after
  exits : ∀ {before after : Holdings} {id : String} {argv : List String} {attach : Bool} {code : Int32},
    engine before (.exec id argv attach) (.reply code) after → code = 0

/-- No alias of any component has two containers, and no role two volumes. -/
structure Holdings.Single (h : Holdings) : Prop where
  containers : ∀ component aliasName, (h.ofAlias component aliasName).length ≤ 1
  volumes : ∀ component (role : VolumeRole), (h.volumesWith (role.labels component)).length ≤ 1

/-- What a push may bring about leaves nothing there twice. -/
theorem Holdings.Single.of_keeps {h k : Holdings} {component : String} (single : h.Single)
    (keeps : h.Keeps k component) : k.Single where
  containers other aliasName := by
    have hle : (h.ofAlias other aliasName).length ≤ max 1 1 := single.containers other aliasName
    exact keeps.ofAlias_length_le hle
  volumes other role := by
    have hle : (h.volumesWith (role.labels other)).length ≤ max 1 1 := single.volumes other role
    exact keeps.volumesWith_length_le hle

namespace Script

variable {α β : Type} {engine : Conduct} {h : Holdings}

/-- Every run of the script that starts there ends with a value that has what is said of it. -/
def Thrives (engine : Conduct) (Q : α → Holdings → Prop) (s : Script α) (h : Holdings) : Prop :=
  ∀ ⦃trace : List Happening⦄ ⦃verdict : Except PushError α⦄ ⦃after : Holdings⦄,
    s.Runs engine h trace verdict after → ∃ value, verdict = .ok value ∧ Q value after

variable {Q : α → Holdings → Prop} {R : β → Holdings → Prop}

theorem thrives_done {value : α} (hQ : Q value h) : (done value).Thrives engine Q h := by
  rintro trace verdict after ⟨rfl, rfl, rfl⟩
  exact ⟨value, rfl, hQ⟩

theorem Thrives.bind {s : Script α} {f : α → Script β} (hs : s.Thrives engine Q h)
    (hf : ∀ value k, Q value k → (f value).Thrives engine R k) : (s >>= f).Thrives engine R h := by
  intro trace verdict after run
  rcases runs_bind_iff.1 run with ⟨error, rfl, hfirst⟩ | ⟨value, middle, t₁, t₂, hfirst, hrest, -⟩
  · obtain ⟨_, hok, -⟩ := hs hfirst
    cases hok
  · obtain ⟨_, hok, hvalue⟩ := hs hfirst
    obtain rfl := Except.ok.inj hok
    exact hf _ _ hvalue hrest

theorem Thrives.step {s : Script α} (hs : s.Thrives engine Q h) (message : String) :
    (step message s).Thrives engine Q h := by
  intro trace verdict after run
  obtain ⟨inner, hinner, -⟩ := runs_step_iff.1 run
  exact hs hinner

/-- What a script logs does not keep it from its end. -/
theorem thrives_notes_bind {events : List Event} {f : Unit → Script α}
    (hf : (f ()).Thrives engine Q h) : (notes events >>= f).Thrives engine Q h := by
  intro trace verdict after run
  obtain ⟨rest, -, hrest⟩ := runs_notes_bind.1 run
  exact hf hrest

theorem thrives_note_bind {event : Event} {f : Unit → Script α}
    (hf : (f ()).Thrives engine Q h) : (note event >>= f).Thrives engine Q h := by
  intro trace verdict after run
  obtain ⟨rest, -, hrest⟩ := runs_note_bind.1 run
  exact hf hrest

theorem thrives_ofExcept_bind {x : Except PushError α} {value : α} (hx : x = .ok value)
    {f : α → Script β} (hf : (f value).Thrives engine R h) :
    (ofExcept x >>= f).Thrives engine R h := by
  subst hx
  exact hf

/-- A call that can be granted is granted. -/
theorem thrives_ask (serves : engine.Serves) {component : String} {deadline : Duration}
    {request : Request} {Q : request.Reply → Holdings → Prop}
    (possible : ∃ reply after, h.Grants request reply after)
    (tells : ∀ reply after, h.Grants request reply after → Q reply after) :
    (ask component deadline request).Thrives engine Q h := by
  intro trace verdict after run
  obtain ⟨reply, rfl, granted, -⟩ := runs_ask_granted serves.honest serves.faultless possible run
  exact ⟨reply, rfl, tells reply after granted⟩

/-- On an engine that serves, no command of a run ends otherwise than with success. -/
theorem Runs.wentWell (serves : engine.Serves) {s : Script α} {after : Holdings}
    {trace : List Happening} {verdict : Except PushError α} (run : s.Runs engine h trace verdict after) :
    ∀ x ∈ trace, x.WentWell := by
  induction s generalizing h trace with
  | done | fail =>
    obtain ⟨rfl, -⟩ := run
    simp
  | log event next ih =>
    obtain ⟨rest, rfl, hnext⟩ := run
    exact List.forall_mem_cons.2 ⟨trivial, ih hnext⟩
  | call request deadline next ih =>
    obtain ⟨answer, middle, rest, meets, rfl, hnext⟩ := run
    refine List.forall_mem_cons.2 ⟨?_, ih answer hnext⟩
    cases request with
    | exec id argv attach =>
      obtain ⟨code, rfl⟩ := serves.faultless meets ⟨(0 : Int32), h, rfl⟩
      exact congrArg Answer.reply (serves.exits meets)
    | _ => trivial

end Script

variable {engine : Conduct} {ctx : Context} {h : Holdings}

/-- A list of at most one element stands in one order only. -/
theorem eq_of_perm_single {α : Type} {found held : List α} (hperm : found.Perm held)
    (hle : held.length ≤ 1) : found = held := by
  rcases held with _ | ⟨a, _ | ⟨b, rest⟩⟩
  · exact hperm.eq_nil
  · exact List.perm_singleton.1 hperm
  · simp at hle

namespace Script

variable {component : String} {deadline : Duration}

/-- A listing of containers shows what is held. -/
theorem thrives_listContainers (serves : engine.Serves) (selector : Labels) :
    (ask component deadline (.listContainers selector)).Thrives engine
      (fun found k => List.Perm found ((h.containersWith selector).map (·.live)) ∧ k = h) h := by
  have possible : ∃ found after, h.Grants (.listContainers selector) found after :=
    ⟨(h.containersWith selector).map (·.live), h, .refl _, rfl⟩
  exact thrives_ask serves possible fun _ _ => id

end Script

/-! ## Volumes -/

/-- However far resolving comes, it makes nothing that is there already. -/
theorem Resolving.single {component : String} {roles : List VolumeRole} {before after : Holdings}
    {calls : List Request} {verdict : Except PushError Unit}
    (resolving : Resolving component roles before calls verdict after) (single : before.Single) :
    after.Single := by
  induction resolving with
  | none | conflict => exact single
  | reused _ _ ih => exact ih single
  | created missing volume labelled _ ih =>
    exact ih (single.of_keeps (Holdings.keeps_addVolume labelled missing))

/-- **Volumes.** Where nothing is there twice, the volumes of a push are resolved. -/
theorem resolveVolumes_thrives (serves : engine.Serves) (single : h.Single)
    (components : List Component) (needsSupervisor : Bool) :
    (resolveVolumes ctx components needsSupervisor).Thrives engine (fun _ k => k.Single) h := by
  intro trace verdict after run
  have resolving := resolveVolumes_resolves serves.honest serves.faultless components needsSupervisor run
  obtain ⟨hok, -⟩ := resolving.resolved (nodup_neededRoles _ _) fun role _ => single.volumes _ role
  cases verdict with
  | error error => cases hok
  | ok names => exact ⟨names, rfl, resolving.single single⟩

/-! ## Containers -/

section Containers

variable {b : Blueprint} {c : Component} {desired : Definition}

/-- For an alias without a container, one is started. -/
theorem startContainer_thrives (serves : engine.Serves) (single : h.Single)
    (hdesired : b.desired ctx c = .ok desired) (none : h.ofAlias ctx.component c.aliasName = []) :
    (startContainer ctx c desired).Thrives engine (fun _ k => k.Single) h := by
  have hpull : (Script.ask ctx.component ctx.config.callDeadline (.pullImage c.image)).Thrives engine
      (fun _ k => k = h) h :=
    Script.thrives_ask serves ⟨(), h, rfl⟩ fun _ _ => id
  have hcreate : (Script.ask ctx.component ctx.config.callDeadline (.createContainer desired)).Thrives
      engine (fun _ k => k.Single) h := by
    refine Script.thrives_ask serves
      ⟨"", _, ⟨⟨"", "", desired.config.labels⟩, desired⟩, rfl, rfl, rfl, rfl⟩ ?_
    rintro id k ⟨r, -, hlabels, -, rfl⟩
    refine single.of_keeps (Holdings.keeps_addContainer (fun other a => ?_) none)
    rw [hlabels]
    exact Blueprint.selects_desired hdesired
  refine (hpull.step _).bind ?_
  rintro - k rfl
  exact (hcreate.step _).bind fun _ l hl => Script.thrives_note_bind (Script.thrives_done hl)

/-- The one container of an alias is kept or replaced. -/
theorem keepOrReplace_thrives (serves : engine.Serves) (single : h.Single)
    (hdesired : b.desired ctx c = .ok desired) {r : Running}
    (only : h.ofAlias ctx.component c.aliasName = [r]) :
    (keepOrReplace ctx c desired r.live).Thrives engine (fun _ k => k.Single) h := by
  have hheld : r ∈ h.containers :=
    (Holdings.mem_ofAlias.1 (only ▸ List.mem_singleton_self r)).1
  have hinspect : (Script.ask ctx.component ctx.config.callDeadline
      (.inspectContainer r.live.id)).Thrives engine (fun _ k => k = h) h :=
    Script.thrives_ask serves ⟨r.definition, h, ⟨r, hheld, rfl, rfl⟩, rfl⟩ fun _ _ granted => granted.2
  refine hinspect.bind ?_
  rintro actual k rfl
  have hremove : (Script.ask ctx.component ctx.config.callDeadline
      (.removeContainer r.live.id)).Thrives engine (fun _ l => l = k.removeContainer r.live.id) k :=
    Script.thrives_ask serves ⟨(), _, rfl⟩ fun _ _ => id
  dsimp only
  split
  · exact Script.thrives_note_bind (Script.thrives_done single)
  · refine Script.thrives_note_bind (Script.Thrives.bind (Q := fun _ l => l.Single) ?_ ?_)
    · refine Script.Thrives.step (hremove.bind ?_) _
      rintro - l rfl
      have hkeeps : k.Keeps (k.removeContainer r.live.id) ctx.component :=
        Holdings.NoMore.keeps (Holdings.noMore_removeContainer k r.live.id)
      have hgone : (k.removeContainer r.live.id).Single := single.of_keeps hkeeps
      exact startContainer_thrives serves hgone hdesired (Holdings.ofAlias_removeContainer_self only)
    · exact fun id l hl => Script.thrives_done hl

namespace Blueprint

/-- A container that can be built is made to run. -/
theorem realizeOne_thrives (serves : engine.Serves) (single : h.Single)
    (hdesired : b.desired ctx c = .ok desired) :
    (b.realizeOne ctx c).Thrives engine (fun _ k => k.Single) h := by
  have hlist : (Script.ask ctx.component ctx.config.callDeadline
      (.listContainers (Labels.ofContainer ctx.component c.aliasName))).Thrives engine
      (fun found k => k = h ∧ found = (h.ofAlias ctx.component c.aliasName).map (·.live)) h := by
    intro trace verdict after run
    obtain ⟨found, rfl, hperm, hk⟩ := Script.thrives_listContainers serves _ run
    refine ⟨found, rfl, hk, eq_of_perm_single hperm ?_⟩
    rw [List.length_map]
    exact single.containers _ _
  refine Script.thrives_notes_bind (Script.thrives_ofExcept_bind hdesired (hlist.bind ?_))
  rintro found k ⟨rfl, rfl⟩
  have hone := single.containers ctx.component c.aliasName
  rcases hheld : k.ofAlias ctx.component c.aliasName with _ | ⟨r, _ | ⟨r', rest⟩⟩
  · exact (startContainer_thrives serves single hdesired hheld).bind fun _ l hl =>
      Script.thrives_done hl
  · exact keepOrReplace_thrives serves single hdesired hheld
  · rw [hheld] at hone
    simp at hone

theorem realizeEach_thrives (serves : engine.Serves) (single : h.Single)
    {components : List Component} (built : ∀ c ∈ components, ∃ desired, b.desired ctx c = .ok desired) :
    (b.realizeEach ctx components).Thrives engine (fun _ k => k.Single) h := by
  induction components generalizing h with
  | nil => exact Script.thrives_done single
  | cons c rest ih =>
    rw [List.forall_mem_cons] at built
    obtain ⟨⟨desired, hdesired⟩, hrest⟩ := built
    exact (realizeOne_thrives serves single hdesired).bind fun _ k hk =>
      Script.thrives_note_bind ((ih hk hrest).bind fun _ l hl => Script.thrives_done hl)

/-- **Containers.** Where nothing is there twice, accepted containers that can be built are all made to
run. -/
theorem realize_thrives (serves : engine.Serves) (single : h.Single)
    (accepted : checkComponents b.components = .ok ())
    (built : ∀ c ∈ b.components, ∃ desired, b.desired ctx c = .ok desired) :
    (b.realize ctx).Thrives engine (fun _ k => k.Single) h :=
  Script.thrives_ofExcept_bind accepted
    ((realizeEach_thrives serves single built).bind fun _ _ hk => Script.thrives_done hk)

end Blueprint

end Containers

/-! ## A push -/

namespace Push

variable {p : Push} {config : ValidConfig} {listing : UrlListing} {urls : List UrlRecord}

/-- Where nothing is there twice, the first part of a push that is not refused succeeds. -/
theorem reconciliation_thrives (serves : engine.Serves) (single : h.Single) (passed : p.check = .ok ())
    (loaded : listing.urls = .ok urls)
    (mapped : ∀ c ∈ p.components, ∃ ports,
      PortMap.ofUrls p.component c urls config.config.hostIp = .ok ports) :
    (p.reconciliation config listing).Thrives engine (fun _ k => k.Single) h := by
  have hvolumes : (resolveVolumes (p.context config) p.components p.commands.run.isSome).Thrives engine
      (fun names k => names.Covers p.components p.commands.run.isSome ∧ k.Single) h := by
    intro trace verdict after run
    obtain ⟨names, rfl, hafter⟩ := resolveVolumes_thrives serves single _ _ run
    exact ⟨names, rfl, (resolveVolumes_ends _ _).of_ok run, hafter⟩
  have hload : (listing.urls.mapError fun e => PushError.urlsUnavailable p.component e.message) =
      .ok urls := Except.mapError_ok_iff.2 loaded
  refine Script.thrives_note_bind (Script.thrives_notes_bind
    (Script.thrives_ofExcept_bind hload (hvolumes.bind ?_)))
  rintro names k ⟨covers, hk⟩
  refine Blueprint.realize_thrives serves hk (check_ok_iff.1 passed).1 fun c hc => ?_
  obtain ⟨ports, hports⟩ := mapped c hc
  exact Blueprint.desired_covered covers hc hports

/-- Where the containers of a push are settled, its second part succeeds. -/
theorem execution_thrives (serves : engine.Serves) (passed : p.check = .ok ()) {names : VolumeNames}
    {records : List ContainerRecord} {before : Holdings}
    (settled : p.Settled config urls names records before h) (containers : ContainerReport) :
    (p.execution config containers).Thrives engine (fun _ _ => True) h := by
  refine (Script.thrives_listContainers serves _).bind ?_
  rintro live k ⟨listed, rfl⟩
  have hcommands : (CommandSelection.runAll (p.context config) p.commands containers.allKept
      live).Thrives engine (fun _ _ => True) k := by
    intro trace verdict after run
    have hcompletes : (CommandSelection.runAll (p.context config) p.commands containers.allKept
        live).Completes :=
      CommandSelection.runAll_completes (check_ok_iff.1 passed).2.1 (settled.targets passed listed)
    obtain ⟨report, hreport⟩ := hcompletes run (run.wentWell serves)
    exact ⟨report, hreport, trivial⟩
  exact hcommands.bind fun _ _ _ => Script.thrives_note_bind (Script.thrives_done trivial)

/-- **Success.** Where nothing is there twice, a push that is not refused and whose URLs are not stale
succeeds on an engine that serves. -/
theorem script_thrives (serves : engine.Serves) (single : h.Single) (ids : h.DistinctIds)
    (passed : p.check = .ok ()) (loaded : listing.urls = .ok urls)
    (mapped : ∀ c ∈ p.components, ∃ ports,
      PortMap.ofUrls p.component c urls config.config.hostIp = .ok ports) :
    (p.script config listing).Thrives engine (fun _ _ => True) h := by
  have hfirst : (p.reconciliation config listing).Thrives engine (fun _ k =>
      ∃ names records, p.Settled config urls names records h k) h := by
    intro trace verdict after run
    obtain ⟨containers, rfl, -⟩ := reconciliation_thrives serves single passed loaded mapped run
    obtain ⟨urls', names, -, -, loaded', -, settled⟩ :=
      reconciliation_ok serves.honest serves.keepsIds ids run
    obtain rfl := Except.ok.inj (loaded.symm.trans loaded')
    exact ⟨containers, rfl, names, containers.records, settled⟩
  refine Script.thrives_ofExcept_bind passed (hfirst.bind ?_)
  rintro containers k ⟨names, records, settled⟩
  exact execution_thrives serves passed settled containers

end Push

end DevfilePush
