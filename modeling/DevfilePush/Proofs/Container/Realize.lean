import DevfilePush.Proofs.Container.Attempt

/-!
# What reconciling containers leaves

Containers are reconciled one after another. Reconciling one replaces, at most, what carries the labels
of its own alias, so it touches neither the containers that were reconciled before nor what the later
ones will be judged by. A record therefore tells how the container that its alias has in the end relates
to what the alias had in the beginning, although much happened before and after it.

## Main definitions

* `ContainerRecord.Tells`: what a record tells of an alias before and after.
* `ContainerRecord.Stands`: the container of a record is still there and agrees.
* `Holdings.SameBut`: nothing is different but the containers of some aliases.

## Main statements

* `Blueprint.realizeOne_ok`: one container.
* `Blueprint.realizeEach_since`, `Blueprint.realize_ok`: containers in order, by induction on the list.
* `Blueprint.realize_finds`: where all containers agree already, reconciling only looks.
-/

namespace DevfilePush

/-- What a record tells: the alias has one container in the end, the one of the record, which agrees with
what was desired and is exactly that if it is new; and the change is the one that the alias's containers
in the beginning called for. -/
structure ContainerRecord.Tells (record : ContainerRecord) (component : String) (desired : Definition)
    (before after : Holdings) : Prop where
  running : ∃ r, after.ofAlias component record.aliasName = [r] ∧ r.live.id = record.id ∧
    desired.agrees r.definition = true ∧ (record.change.isNew = true → r.definition = desired)
  created : record.change = .created ↔ before.ofAlias component record.aliasName = []
  kept : record.change = .kept ↔
    ∃ r, before.ofAlias component record.aliasName = [r] ∧ desired.agrees r.definition = true
  replaced : ∀ differences, record.change = .replaced differences ↔
    ∃ r, before.ofAlias component record.aliasName = [r] ∧
      desired.agrees r.definition = false ∧ differences = desired.differences r.definition

/-- The container of a record is the only one of its alias and agrees with what is desired. -/
def ContainerRecord.Stands (record : ContainerRecord) (component : String) (desired : Definition)
    (h : Holdings) : Prop :=
  ∃ r, h.ofAlias component record.aliasName = [r] ∧ r.live.id = record.id ∧
    desired.agrees r.definition = true

/-- The record of a container that is left as it is. -/
def ContainerRecord.again (record : ContainerRecord) : ContainerRecord := { record with change := .kept }

/-- Nothing is different but the containers of some aliases of the component. -/
structure Holdings.SameBut (before after : Holdings) (component : String) (aliases : List String) :
    Prop where
  volumes : after.volumes = before.volumes
  containers : ∀ aliasName ∉ aliases,
    after.ofAlias component aliasName = before.ofAlias component aliasName

namespace Holdings

variable {h : Holdings}

theorem SameBut.refl (h : Holdings) (component : String) (aliases : List String) :
    h.SameBut h component aliases :=
  ⟨rfl, fun _ _ => rfl⟩

theorem SameBut.trans {k l : Holdings} {firsts others : List String}
    (hk : h.SameBut k component firsts) (kl : k.SameBut l component others) :
    h.SameBut l component (firsts ++ others) := by
  refine ⟨kl.volumes.trans hk.volumes, fun a ha => ?_⟩
  rw [List.mem_append, not_or] at ha
  exact (kl.containers a ha.2).trans (hk.containers a ha.1)

end Holdings

/-- What a record tells depends only on the alias's own containers, before and after. -/
theorem ContainerRecord.Tells.congr {record : ContainerRecord} {component : String}
    {desired : Definition} {before after before' after' : Holdings}
    (tells : record.Tells component desired before after)
    (sameBefore : before'.ofAlias component record.aliasName = before.ofAlias component record.aliasName)
    (sameAfter : after'.ofAlias component record.aliasName = after.ofAlias component record.aliasName) :
    record.Tells component desired before' after' :=
  ⟨sameAfter ▸ tells.running, sameBefore ▸ tells.created, sameBefore ▸ tells.kept,
    sameBefore ▸ tells.replaced⟩

theorem ContainerRecord.Tells.stands {record : ContainerRecord} {component : String}
    {desired : Definition} {before after : Holdings} (tells : record.Tells component desired before after) :
    record.Stands component desired after := by
  obtain ⟨r, hr, hid, hagrees, -⟩ := tells.running
  exact ⟨r, hr, hid, hagrees⟩

/-- If a record says that its container is new, then it was not there before. -/
theorem ContainerRecord.Tells.exists_new {record : ContainerRecord} {component : String}
    {desired : Definition} {before after : Holdings} (tells : record.Tells component desired before after)
    (isNew : record.change.isNew = true) :
    ∃ r ∈ after.ofAlias component record.aliasName, r ∉ before.containers := by
  obtain ⟨r, hr, -, -, hdefinition⟩ := tells.running
  have hmem : r ∈ after.ofAlias component record.aliasName := hr ▸ List.mem_singleton_self r
  refine ⟨r, hmem, fun hold => ?_⟩
  have hbefore : r ∈ before.ofAlias component record.aliasName :=
    Holdings.mem_ofAlias.2 ⟨hold, (Holdings.mem_ofAlias.1 hmem).2⟩
  cases hchange : record.change with
  | kept => simp [hchange, ContainerChange.isNew] at isNew
  | created => simp [tells.created.1 hchange] at hbefore
  | replaced differences =>
    -- what is replaced does not agree, and what is new does
    obtain ⟨old, hold, hdiffers, -⟩ := (tells.replaced differences).1 hchange
    rw [hold, List.mem_singleton] at hbefore
    rw [← hbefore, hdefinition isNew, Definition.agrees_refl] at hdiffers
    cases hdiffers

/-- What agrees with something desired agrees with whatever agrees with that. -/
theorem ContainerRecord.Stands.trans {record : ContainerRecord} {component : String}
    {desired desired' : Definition} {h : Holdings} (stands : record.Stands component desired h)
    (agrees : desired'.agrees desired = true) : record.Stands component desired' h := by
  obtain ⟨r, hr, hid, hagrees⟩ := stands
  exact ⟨r, hr, hid, Definition.agrees_trans agrees hagrees⟩

/-! ## Reconciling -/

namespace Blueprint

variable {ctx : Context} {engine : Conduct} {before after : Holdings} {trace : List Happening}
  {c : Component} {desired : Definition} {b : Blueprint}

/-- **One container.** The record tells what became of its alias, and nothing else is different. -/
theorem realizeOne_ok (honest : engine.Honest) (ids : before.DistinctIds) {record : ContainerRecord}
    (run : (b.realizeOne ctx c).Runs engine before trace (.ok record) after) :
    ∃ desired, b.desired ctx c = .ok desired ∧ record.aliasName = c.aliasName ∧
      record.Tells ctx.component desired before after ∧
      before.SameBut after ctx.component [c.aliasName] := by
  obtain ⟨desired, hdesired, hcases⟩ := (realizeOne_realizing honest run).ok_cases honest
  refine ⟨desired, hdesired, ?_⟩
  have hadd := fun {r : Running} hr => ofAlias_addContainer (r := r) hdesired hr
  obtain ⟨hnone, new, hlabels, hdefinition, rfl, rfl⟩ | ⟨old, hold, r, hr, hid, hcases⟩ := hcases
  · -- created
    refine ⟨rfl, ⟨⟨new, ?_, rfl, ?_, fun _ => hdefinition⟩, ?_, ?_, ?_⟩, rfl, fun a ha => ?_⟩
    · rw [hadd hlabels, hnone, if_pos rfl, List.nil_append]
    · rw [hdefinition, Definition.agrees_refl]
    · simp [hnone]
    · simp [hnone]
    · simp [hnone]
    · rw [hadd hlabels, if_neg (mt List.mem_singleton.2 ha), List.append_nil]
  have hmem : old ∈ before.ofAlias ctx.component c.aliasName := hold ▸ List.mem_singleton_self old
  obtain rfl := ids.eq_of_id hr (Holdings.mem_ofAlias.1 hmem).1 hid
  obtain ⟨hagrees, rfl, rfl⟩ | ⟨hagrees, new, hlabels, hdefinition, rfl, rfl⟩ := hcases
  · -- kept
    refine ⟨rfl, ⟨⟨r, hold, rfl, hagrees, nofun⟩, ?_, ?_, ?_⟩, .refl _ _ _⟩
    · simp [hold]
    · simp [hold, hagrees]
    · simp [hold, hagrees]
  · -- replaced
    refine ⟨rfl, ⟨⟨new, ?_, rfl, ?_, fun _ => hdefinition⟩, ?_, ?_, fun ds => ?_⟩, rfl, fun a ha => ?_⟩
    · rw [hadd hlabels, Holdings.ofAlias_removeContainer_self hold, if_pos rfl, List.nil_append]
    · rw [hdefinition, Definition.agrees_refl]
    · simp [hold]
    · simp [hold, hagrees]
    · simp [hold, hagrees, eq_comm (a := ds)]
    · rw [hadd hlabels, if_neg (mt List.mem_singleton.2 ha), List.append_nil]
      exact Holdings.ofAlias_removeContainer_of_ne ids hmem (mt List.mem_singleton.2 ha)

/-- Where the aliases of containers are still as they were at some start, each record tells what became
of its own alias since that start. -/
theorem realizeEach_since (honest : engine.Honest) (keepsIds : engine.KeepsIds) (start : Holdings)
    (ids : before.DistinctIds) {components : List Component}
    (nodup : (components.map (·.aliasName)).Nodup)
    (untouched : ∀ a ∈ components.map (·.aliasName),
      before.ofAlias ctx.component a = start.ofAlias ctx.component a)
    {records : List ContainerRecord}
    (run : (b.realizeEach ctx components).Runs engine before trace (.ok records) after) :
    List.Forall₂ (fun c record => ∃ desired, b.desired ctx c = .ok desired ∧
        record.aliasName = c.aliasName ∧ record.Tells ctx.component desired start after)
      components records ∧
    before.SameBut after ctx.component (components.map (·.aliasName)) := by
  induction components generalizing before trace records with
  | nil =>
    obtain ⟨-, hrecords, rfl⟩ := run
    obtain rfl := Except.ok.inj hrecords
    exact ⟨.nil, .refl _ _ _⟩
  | cons c rest ih =>
    obtain ⟨record, others, middle, t₁, t₂, hfirst, heach, rfl, -⟩ := runs_realizeEach_cons_ok.1 run
    rw [List.map_cons, List.nodup_cons] at nodup
    rw [List.map_cons, List.forall_mem_cons] at untouched
    obtain ⟨desired, hdesired, haliasName, tells, same⟩ := realizeOne_ok honest ids hfirst
    -- reconciling this alias leaves the later ones as they were at the start
    have huntouched : ∀ a ∈ rest.map (·.aliasName),
        middle.ofAlias ctx.component a = start.ofAlias ctx.component a := by
      intro a ha
      have hne : a ∉ [c.aliasName] := by
        rw [List.mem_singleton]
        exact fun h => nodup.1 (h ▸ ha)
      exact (same.containers a hne).trans (untouched.2 a ha)
    obtain ⟨htells, same'⟩ := ih (hfirst.distinctIds keepsIds ids) nodup.2 huntouched heach
    refine ⟨.cons ⟨desired, hdesired, haliasName, ?_⟩ htells, same.trans same'⟩
    -- and the later ones leave this alias alone
    apply tells.congr
    · rw [haliasName]
      exact untouched.1.symm
    · rw [haliasName]
      exact same'.containers _ nodup.1

/-- **Containers in order.** If all are reconciled, they can be accepted, and each record tells what
became of its own alias, from before the first of them to after the last. -/
theorem realize_ok (honest : engine.Honest) (keepsIds : engine.KeepsIds)
    (ids : before.DistinctIds) {report : ContainerReport}
    (run : (b.realize ctx).Runs engine before trace (.ok report) after) :
    checkComponents b.components = .ok () ∧
    List.Forall₂ (fun c record => ∃ desired, b.desired ctx c = .ok desired ∧
        record.aliasName = c.aliasName ∧ record.Tells ctx.component desired before after)
      b.components report.records ∧
    before.SameBut after ctx.component (b.components.map (·.aliasName)) := by
  obtain ⟨haccepted, heach⟩ := runs_realize_ok.1 run
  obtain ⟨-, -, nodup⟩ := checkComponents_ok_iff.1 haccepted
  exact ⟨haccepted, realizeEach_since honest keepsIds before ids nodup (fun _ _ => rfl) heach⟩

/-! ## Reconciling again -/

/-- The only container of an alias is kept if it agrees. -/
theorem keepOrReplace_finds (honest : engine.Honest) (faultless : engine.Faultless)
    (ids : before.DistinctIds) {r : Running} (hr : r ∈ before.containers)
    (agrees : desired.agrees r.definition = true) :
    (keepOrReplace ctx c desired r.live).Finds engine before ⟨c.aliasName, r.live.id, .kept⟩ := by
  have hinspect : (Script.ask ctx.component ctx.config.callDeadline
      (.inspectContainer r.live.id)).Finds engine before r.definition := by
    have hpossible : before.Grants (.inspectContainer r.live.id) r.definition before :=
      ⟨⟨r, hr, rfl, rfl⟩, rfl⟩
    refine Script.finds_ask honest faultless rfl hpossible ?_ _ _
    rintro other after ⟨⟨s, hs, hid, rfl⟩, -⟩
    rw [ids.eq_of_id hs hr hid]
  refine hinspect.bind ?_
  rw [Definition.agrees] at agrees
  simp only [agrees, if_true]
  exact (Script.finds_note _).bind (Script.finds_done _)

/-- A container that stands is reconciled by looking, and its record says that it was kept. -/
theorem realizeOne_finds (honest : engine.Honest) (faultless : engine.Faultless)
    (ids : before.DistinctIds) (hdesired : b.desired ctx c = .ok desired) {record : ContainerRecord}
    (haliasName : record.aliasName = c.aliasName)
    (stands : record.Stands ctx.component desired before) :
    (b.realizeOne ctx c).Finds engine before record.again := by
  obtain ⟨r, hr, hid, hagrees⟩ := stands
  rw [haliasName] at hr
  have hmem : r ∈ before.ofAlias ctx.component c.aliasName := hr ▸ List.mem_singleton_self r
  have hagain : record.again = ⟨c.aliasName, r.live.id, .kept⟩ := by
    rw [ContainerRecord.again, haliasName, hid]
  have hlist : (Script.ask ctx.component ctx.config.callDeadline
      (.listContainers (Labels.ofContainer ctx.component c.aliasName))).Finds engine before [r.live] := by
    have hlisted : before.Grants (.listContainers (Labels.ofContainer ctx.component c.aliasName))
        [r.live] before := by
      refine ⟨.of_eq ?_, rfl⟩
      rw [← Holdings.ofAlias, hr, List.map_singleton]
    refine Script.finds_ask honest faultless rfl hlisted ?_ _ _
    rintro other after ⟨hperm, -⟩
    rw [← Holdings.ofAlias, hr, List.map_singleton] at hperm
    exact List.perm_singleton.1 hperm
  have hkeep : (keepOrReplace ctx c desired r.live).Finds engine before
      ⟨c.aliasName, r.live.id, .kept⟩ :=
    keepOrReplace_finds honest faultless ids (Holdings.mem_ofAlias.1 hmem).1 hagrees
  rw [hagain]
  exact (Script.finds_notes _).bind ((Script.finds_ofExcept hdesired).bind (hlist.bind hkeep))

/-- Containers that all stand are reconciled by looking. -/
theorem realizeEach_finds (honest : engine.Honest) (faultless : engine.Faultless)
    (ids : before.DistinctIds) {components : List Component} {records : List ContainerRecord}
    (stand : List.Forall₂ (fun c record => ∃ desired, b.desired ctx c = .ok desired ∧
      record.aliasName = c.aliasName ∧ record.Stands ctx.component desired before) components records) :
    (b.realizeEach ctx components).Finds engine before (records.map (·.again)) := by
  induction stand with
  | nil => exact Script.finds_done _
  | cons head _ ih =>
    obtain ⟨desired, hdesired, haliasName, hstands⟩ := head
    exact (realizeOne_finds honest faultless ids hdesired haliasName hstands).bind
      ((Script.finds_note _).bind (ih.bind (Script.finds_done _)))

/-- **Containers again.** Where all containers stand, reconciling them only looks and keeps them all. -/
theorem realize_finds (honest : engine.Honest) (faultless : engine.Faultless)
    (ids : before.DistinctIds) (accepted : checkComponents b.components = .ok ())
    {records : List ContainerRecord}
    (stand : List.Forall₂ (fun c record => ∃ desired, b.desired ctx c = .ok desired ∧
      record.aliasName = c.aliasName ∧ record.Stands ctx.component desired before) b.components records) :
    (b.realize ctx).Finds engine before ⟨records.map (·.again)⟩ :=
  (Script.finds_ofExcept accepted).bind
    ((realizeEach_finds honest faultless ids stand).bind (Script.finds_done _))

end Blueprint

end DevfilePush
