import DevfilePush.Proofs.Container.Attempt
import DevfilePush.Proofs.Volume.Renamed

/-!
# Reconciling containers under a renaming

Where volumes and containers are called otherwise, the definition that a container has to be running is
the same but for the names of its mounts, it differs from a running one in the same aspects, and so the
same containers are kept, made and replaced.

## Main definitions

* `Blueprint.mounting`: the declared containers with other volumes.

## Main statements

* `Blueprint.desired_mounting`: what a container has to be running, by other names.
* `Blueprint.realize_twins`: all containers of a push.
-/

namespace DevfilePush

variable {commandLine : ContainerConfig → String} {π : Renaming} {names names' : VolumeNames}

/-! ## What is built -/

/-- Computations that end in the same way one by one do so in order. -/
theorem Except.mapM_map {ε α β γ : Type} (f : α → Except ε β) (g : β → γ) (xs : List α) :
    xs.mapM (fun x => (f x).map g) = (xs.mapM f).map (List.map g) := by
  induction xs with
  | nil => rfl
  | cons x xs ih =>
    rw [List.mapM_cons, List.mapM_cons, ih]
    cases f x with
    | error e => rfl
    | ok y => cases xs.mapM f <;> rfl

namespace Surroundings

variable {inputs : Surroundings} {c : Component}

theorem storageMounts_renamed (same : π.MatchesNames inputs.volumes names') :
    { inputs with volumes := names' }.storageMounts c =
      (inputs.storageMounts c).map (List.map π.mount) := by
  unfold storageMounts
  rw [← Except.mapM_map]
  refine congrArg (c.volumeMounts.mapM ·) (funext fun m => ?_)
  rw [same.storage]
  cases inputs.volumes.storage.get? m.name <;> rfl

theorem supervisorMounts_renamed (same : π.MatchesNames inputs.volumes names') :
    { inputs with volumes := names' }.supervisorMounts c =
      (inputs.supervisorMounts c).map (List.map π.mount) := by
  unfold supervisorMounts
  rw [same.supervisor]
  have hrun : { inputs with volumes := names' }.runFor c = inputs.runFor c := rfl
  rw [hrun]
  cases inputs.runFor c with
  | none => rfl
  | some run => cases inputs.volumes.supervisor <;> rfl

theorem sourceMounts_renamed (same : π.MatchesNames inputs.volumes names') :
    { inputs with volumes := names' }.sourceMounts c = (inputs.sourceMounts c).map π.mount := by
  unfold sourceMounts
  rw [same.projectSource]
  split <;> rfl

/-- What is built mounts the same volumes by their other names. -/
theorem build_renamed (same : π.MatchesNames inputs.volumes names') (ports : PortMap) :
    Definition.build { inputs with volumes := names' } c ports =
      (Definition.build inputs c ports).map π.definition := by
  unfold Definition.build
  rw [storageMounts_renamed same, supervisorMounts_renamed same, sourceMounts_renamed same]
  cases inputs.storageMounts c with
  | error e => rfl
  | ok storage =>
    cases inputs.supervisorMounts c with
    | error e => rfl
    | ok supervisor =>
      refine congrArg Except.ok (congrArg (Definition.mk _) (congrArg (HostConfig.mk _) ?_))
      rw [List.map_append, List.map_append]

end Surroundings

namespace Blueprint

variable {ctx : Context} {b : Blueprint} {c : Component} {desired : Definition} {h : Holdings}

/-- The declared containers with other volumes. -/
def mounting (b : Blueprint) (names : VolumeNames) : Blueprint := { b with volumes := names }

/-- What a container has to be running is the same but for names. -/
theorem desired_mounting (same : π.MatchesNames b.volumes names') :
    (b.mounting names').desired ctx c = (b.desired ctx c).map π.definition := by
  unfold desired
  cases hports : PortMap.ofUrls ctx.component c b.urls ctx.config.hostIp with
  | error e =>
    have hports' : PortMap.ofUrls ctx.component c (b.mounting names').urls ctx.config.hostIp =
      .error e := hports
    rw [hports']
    rfl
  | ok ports =>
    have hports' : PortMap.ofUrls ctx.component c (b.mounting names').urls ctx.config.hostIp =
      .ok ports := hports
    have hnames : π.MatchesNames (b.surroundings ctx).volumes names' := same
    have hbuild : Definition.build ((b.mounting names').surroundings ctx) c ports =
        (Definition.build (b.surroundings ctx) c ports).map π.definition :=
      Surroundings.build_renamed hnames ports
    rw [hports']
    change ((Definition.build ((b.mounting names').surroundings ctx) c ports).mapError
      PushError.internal) = Except.map π.definition
        ((Definition.build (b.surroundings ctx) c ports).mapError PushError.internal)
    rw [hbuild]
    cases Definition.build (b.surroundings ctx) c ports <;> rfl

end Blueprint

/-! ## One container -/

section Container

variable {ctx : Context} {b : Blueprint} {c : Component} {desired : Definition} {h : Holdings}

/-- What is desired for a component's container belongs to the component. -/
theorem Blueprint.owner?_desired (hdesired : b.desired ctx c = .ok desired) :
    desired.config.labels.owner? = some ctx.component :=
  (Labels.ofContainer_selects_iff.1 ((selects_desired hdesired).2 ⟨rfl, rfl⟩)).1

theorem startContainer_twins (hdesired : b.desired ctx c = .ok desired) :
    (startContainer ctx c desired).Twins commandLine π ctx.component
      (fun id id' _ => id' = π.ids id) (startContainer ctx c (π.definition desired)) h := by
  have hpull : (Script.ask ctx.component ctx.config.callDeadline (.pullImage c.image)).Twins
      commandLine π ctx.component (fun _ _ _ => True)
      (Script.ask ctx.component ctx.config.callDeadline (.pullImage c.image)) h :=
    Script.twins_ask (r := .pullImage _) trivial fun _ _ _ _ _ _ => trivial
  have hcreate : ∀ k, (Script.ask ctx.component ctx.config.callDeadline
      (.createContainer desired)).Twins commandLine π ctx.component (fun id id' _ => id' = π.ids id)
      (Script.ask ctx.component ctx.config.callDeadline
        (.createContainer (π.definition desired))) k :=
    fun k => Script.twins_ask (r := .createContainer _) (Blueprint.owner?_desired hdesired)
      fun _ _ _ _ _ same => same
  exact (hpull.step _).bind fun _ _ k _ => ((hcreate k).step _).bind fun _ _ _ hid => hid

theorem keepOrReplace_twins (hdesired : b.desired ctx c = .ok desired) {live : ListedContainer}
    (there : ∃ r ∈ h.containers, r.live.id = live.id) :
    (keepOrReplace ctx c desired live).Twins commandLine π ctx.component
      (fun record record' _ => record' = π.record record)
      (keepOrReplace ctx c (π.definition desired) (π.listed live)) h := by
  have hinspect : (Script.ask ctx.component ctx.config.callDeadline
      (.inspectContainer live.id)).Twins commandLine π ctx.component
      (fun actual actual' k => actual' = π.definition actual ∧ k = h)
      (Script.ask ctx.component ctx.config.callDeadline (.inspectContainer (π.ids live.id))) h :=
    Script.twins_ask (r := .inspectContainer _) there fun _ _ _ _ granted same => ⟨same, granted.2⟩
  refine hinspect.bind ?_
  rintro actual actual' k ⟨rfl, rfl⟩
  have hremove : (Script.ask ctx.component ctx.config.callDeadline
      (.removeContainer live.id)).Twins commandLine π ctx.component (fun _ _ _ => True)
      (Script.ask ctx.component ctx.config.callDeadline (.removeContainer (π.ids live.id))) k :=
    Script.twins_ask (r := .removeContainer _) there fun _ _ _ _ _ _ => trivial
  dsimp only
  rw [Renaming.differences_definition]
  split
  · exact rfl
  · have hupdate := hremove.bind fun _ _ l _ => startContainer_twins (h := l) hdesired
    exact Script.twins_note_bind ((hupdate.step _).bind fun id id' l hid =>
      congrArg (ContainerRecord.mk _ · _) hid)

namespace Blueprint

/-- A declared container is kept, made or replaced the same. -/
theorem realizeOne_twins (same : π.MatchesNames b.volumes names') :
    (b.realizeOne ctx c).Twins commandLine π ctx.component
      (fun record record' _ => record' = π.record record) ((b.mounting names').realizeOne ctx c) h := by
  refine Script.twins_notes_bind ?_
  refine Script.twins_ofExcept_bind (desired_mounting same) fun desired hdesired => ?_
  have hlist : (Script.ask ctx.component ctx.config.callDeadline
      (.listContainers (Labels.ofContainer ctx.component c.aliasName))).Twins commandLine π ctx.component
      (fun found found' k => List.Perm found' (List.map π.listed found) ∧
        ∀ live ∈ (found : List ListedContainer), ∃ r ∈ k.containers, r.live.id = live.id)
      (Script.ask ctx.component ctx.config.callDeadline
        (.listContainers (Labels.ofContainer ctx.component c.aliasName))) h := by
    refine Script.twins_ask (r := .listContainers _) Labels.get?_ofContainer_component ?_
    rintro found found' k - ⟨hperm, rfl⟩ same
    refine ⟨same, fun live hlive => ?_⟩
    obtain ⟨r, hr, rfl⟩ := List.mem_map.1 (hperm.mem_iff.1 hlive)
    exact ⟨r, List.mem_of_mem_filter hr, rfl⟩
  refine hlist.bind ?_
  rintro found found' k ⟨same, there⟩
  rcases Lookup.ofMatches_renamed same with ⟨hfound, hfound'⟩ | ⟨live, rfl, hfound, hfound'⟩ |
    ⟨lives, lives', hfound, hfound', hlength⟩
  · rw [hfound, hfound']
    exact (startContainer_twins hdesired).bind fun id id' l hid => congrArg (ContainerRecord.mk _ · _) hid
  · rw [hfound, hfound']
    exact keepOrReplace_twins hdesired (there live (List.mem_singleton_self live))
  · rw [hfound, hfound']
    exact congrArg (PushError.duplicateContainers ctx.component c.aliasName) hlength

theorem realizeEach_twins (same : π.MatchesNames b.volumes names') (components : List Component) :
    (b.realizeEach ctx components).Twins commandLine π ctx.component
      (fun records records' _ => records' = records.map π.record)
      ((b.mounting names').realizeEach ctx components) h := by
  induction components generalizing h with
  | nil => exact rfl
  | cons c rest ih =>
    refine (realizeOne_twins same).bind ?_
    rintro record record' k rfl
    refine Script.twins_note_bind (ih.bind ?_)
    rintro records records' l rfl
    exact rfl

/-- **Containers.** The same containers are kept, made and replaced. -/
theorem realize_twins (b : Blueprint) (ctx : Context) (same : π.MatchesNames b.volumes names') :
    (b.realize ctx).Twins commandLine π ctx.component
      (fun report report' _ => report' = ⟨report.records.map π.record⟩)
      ((b.mounting names').realize ctx) h := by
  have haccepted : checkComponents b.components = (checkComponents b.components).map id := by
    rw [Except.map_id, id]
  refine Script.twins_ofExcept_bind haccepted fun _ _ => (realizeEach_twins same b.components).bind ?_
  rintro records records' k rfl
  exact rfl

end Blueprint

end Container

end DevfilePush
