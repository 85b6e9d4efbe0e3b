import DevfilePush.Proofs.Push.Parts
import DevfilePush.Proofs.Volume.Resolve

/-!
# What resolving volumes adds

However far resolving comes, it takes no volume away. It adds volumes for some of the roles that were
asked for, one each, and each of these had none before. As the roles' labels tell them apart, what is
added for one role does not count as the volume of another.

## Main definitions

* `Holdings.Supplied`: nothing is different but one more volume for each of some roles.
* `Script.Supplies`: every run of a script supplies some of the wanted roles.
* `neededRoles`: the roles that a push needs.

## Main statements

* `resolveVolumes_supplies`: however it ends, resolving supplies some of the needed roles.
* `resolveVolumes_asks`: it asks for nothing but volumes.
-/

namespace DevfilePush

/-- Nothing is different but one more volume for each of some roles, which had none. -/
structure Holdings.Supplied (before after : Holdings) (component : String) (roles : List VolumeRole) :
    Prop where
  containers : after.containers = before.containers
  volumes : ∃ made : List Volume, after.volumes = before.volumes ++ made ∧
    made.map (·.labels) = roles.map (·.labels component)
  missing : ∀ role ∈ roles, before.volumesWith (role.labels component) = []
  distinct : roles.Nodup

/-- The roles that a push needs. -/
def neededRoles (components : List Component) (needsSupervisor : Bool) : List VolumeRole :=
  [.projectSource] ++ (if needsSupervisor then [.supervisor] else []) ++
    (storageNames components).map .storage

namespace Holdings.Supplied

variable {before middle after : Holdings} {component : String} {role : VolumeRole}
  {roles others : List VolumeRole}

theorem refl (h : Holdings) (component : String) : h.Supplied h component [] where
  containers := rfl
  volumes := ⟨[], by simp⟩
  missing := by simp
  distinct := List.nodup_nil

/-- A volume made for a role that had none supplies it. -/
theorem one {v : Volume} (hlabels : v.labels = role.labels component)
    (hnone : before.volumesWith (role.labels component) = []) :
    before.Supplied (before.addVolume v) component [role] where
  containers := rfl
  volumes := ⟨[v], rfl, by simp [hlabels]⟩
  missing := by simpa using hnone
  distinct := List.nodup_singleton role

/-- What had no volume afterwards had none before. -/
theorem missing_of_after (supplied : before.Supplied after component roles) {selector : Labels}
    (hnone : after.volumesWith selector = []) : before.volumesWith selector = [] := by
  obtain ⟨made, hvolumes, -⟩ := supplied.volumes
  simp only [volumesWith, hvolumes, List.filter_append, List.append_eq_nil_iff] at hnone
  exact hnone.1

/-- A role that was supplied has a volume. -/
theorem volumesWith_ne_nil (supplied : before.Supplied after component roles) (hrole : role ∈ roles) :
    after.volumesWith (role.labels component) ≠ [] := by
  obtain ⟨made, hvolumes, hmade⟩ := supplied.volumes
  have hlabels : role.labels component ∈ made.map (·.labels) := hmade ▸ List.mem_map_of_mem hrole
  obtain ⟨v, hv, hvlabels⟩ := List.mem_map.1 hlabels
  apply List.ne_nil_of_mem (a := v)
  rw [volumesWith, List.mem_filter, hvolumes, hvlabels]
  exact ⟨List.mem_append_right _ hv, Labels.selects_self _⟩

/-- A role that was not supplied has the volumes that it had. -/
theorem volumesWith_of_not_mem (supplied : before.Supplied after component roles) (hrole : role ∉ roles) :
    after.volumesWith (role.labels component) = before.volumesWith (role.labels component) := by
  obtain ⟨made, hvolumes, hmade⟩ := supplied.volumes
  have hnone : made.filter (fun v => (role.labels component).selects v.labels) = [] := by
    rw [List.filter_eq_nil_iff]
    intro v hv hselects
    have hlabels : v.labels ∈ roles.map (·.labels component) := hmade ▸ List.mem_map_of_mem hv
    obtain ⟨other, hother, heq⟩ := List.mem_map.1 hlabels
    rw [← heq] at hselects
    obtain ⟨rfl, -⟩ := VolumeRole.labels_selects_labels.1 hselects
    exact hrole hother
  rw [volumesWith, volumesWith, hvolumes, List.filter_append, hnone, List.append_nil]

theorem trans (h : before.Supplied middle component roles)
    (h' : middle.Supplied after component others) :
    before.Supplied after component (roles ++ others) where
  containers := h'.containers.trans h.containers
  volumes := by
    obtain ⟨made, hvolumes, hmade⟩ := h.volumes
    obtain ⟨made', hvolumes', hmade'⟩ := h'.volumes
    refine ⟨made ++ made', ?_, ?_⟩
    · rw [hvolumes', hvolumes, List.append_assoc]
    · rw [List.map_append, List.map_append, hmade, hmade']
  missing := by
    intro role hrole
    rcases List.mem_append.1 hrole with hrole | hrole
    · exact h.missing role hrole
    · exact h.missing_of_after (h'.missing role hrole)
  distinct := by
    refine List.nodup_append.2 ⟨h.distinct, h'.distinct, ?_⟩
    rintro role hrole _ hother rfl
    exact h.volumesWith_ne_nil hrole (h'.missing role hother)

end Holdings.Supplied

/-! ## Scripts that supply roles -/

namespace Script

variable {α β : Type} {engine : Conduct} {component : String} {wanted others : List VolumeRole}

/-- However it ends, the script supplies some of the wanted roles and changes nothing else. -/
def Supplies (engine : Conduct) (component : String) (wanted : List VolumeRole) (s : Script α) : Prop :=
  ∀ ⦃before : Holdings⦄ ⦃trace : List Happening⦄ ⦃verdict : Except PushError α⦄ ⦃after : Holdings⦄,
    s.Runs engine before trace verdict after →
      ∃ roles, roles ⊆ wanted ∧ before.Supplied after component roles

theorem supplies_done (value : α) : (done value).Supplies engine component [] := by
  intro before trace verdict after run
  obtain ⟨-, -, rfl⟩ := run
  exact ⟨[], List.Subset.refl _, .refl _ _⟩

theorem Supplies.bind {s : Script α} {f : α → Script β} (hs : s.Supplies engine component wanted)
    (hf : ∀ value, (f value).Supplies engine component others) :
    (s >>= f).Supplies engine component (wanted ++ others) := by
  intro before trace verdict after run
  rcases runs_bind_iff.1 run with ⟨error, -, h⟩ | ⟨value, middle, t₁, t₂, h₁, h₂, -⟩
  · obtain ⟨roles, hroles, supplied⟩ := hs h
    exact ⟨roles, List.subset_append_of_subset_left _ hroles, supplied⟩
  · obtain ⟨roles, hroles, supplied⟩ := hs h₁
    obtain ⟨roles', hroles', supplied'⟩ := hf value h₂
    exact ⟨roles ++ roles', List.append_subset.2 ⟨List.subset_append_of_subset_left _ hroles,
      List.subset_append_of_subset_right _ hroles'⟩, supplied.trans supplied'⟩

/-- What is done with the value in the end supplies nothing more. -/
theorem Supplies.bind_done {s : Script α} (hs : s.Supplies engine component wanted) (f : α → β) :
    (s >>= fun value => done (f value)).Supplies engine component wanted := by
  intro before trace verdict after run
  obtain ⟨inner, h, -⟩ := runs_bind_done.1 run
  exact hs h

end Script

/-! ## Resolving -/

variable {ctx : Context} {engine : Conduct}

/-- A call that makes a volume of a role that had none supplies the role, if it takes effect. -/
theorem ask_createVolume_supplied (honest : engine.Honest) {role : VolumeRole} {stem : String}
    {before after : Holdings} {trace : List Happening} {verdict : Except PushError Volume}
    (hnone : before.volumesWith (role.labels ctx.component) = [])
    (run : (Script.ask ctx.component ctx.config.callDeadline
      (.createVolume stem (role.labels ctx.component))).Runs engine before trace verdict after) :
    ∃ roles, roles ⊆ [role] ∧ before.Supplied after ctx.component roles := by
  have heffect : ∃ answer, engine before (.createVolume stem (role.labels ctx.component)) answer after := by
    rcases Script.runs_ask_cases run with ⟨reply, -, met, -⟩ | ⟨answer, error, -, -, met, -⟩
    · exact ⟨.reply reply, met⟩
    · exact ⟨answer, met⟩
  obtain ⟨answer, met⟩ := heffect
  rcases honest.effect met with rfl | ⟨v, hlabels, rfl⟩
  · exact ⟨[], List.nil_subset _, .refl _ _⟩
  · exact ⟨[role], List.Subset.refl _, .one hlabels hnone⟩

theorem resolveVolume_supplies (honest : engine.Honest) (role : VolumeRole) :
    (resolveVolume ctx role).Supplies engine ctx.component [role] := by
  intro before trace verdict after run
  have unchanged : ∃ roles, roles ⊆ [role] ∧ before.Supplied before ctx.component roles :=
    ⟨[], List.nil_subset _, .refl _ _⟩
  rcases Script.runs_bind_iff.1 run with ⟨error, -, hlook⟩ | ⟨looked, m, t₁, t₂, hlook, hrest, -⟩
  · obtain ⟨inner, hask, -⟩ := Script.runs_bind_done.1 hlook
    rcases Script.runs_ask_cases hask with ⟨reply, -, met, -⟩ | ⟨answer, _, -, -, met, -⟩
    · rw [honest.unaltered met rfl]
      exact unchanged
    · rw [honest.unaltered met rfl]
      exact unchanged
  obtain ⟨found, hperm, rfl, rfl⟩ := lookupVolume_ok honest hlook
  cases hm : Lookup.ofMatches found with
  | missing =>
    obtain rfl := Lookup.ofMatches_eq_missing.1 hm
    rw [hm] at hrest
    rcases Script.runs_bind_iff.1 hrest with ⟨error, -, hcreate⟩ | ⟨v, m', t₃, t₄, hcreate, hnote, -⟩
    · exact ask_createVolume_supplied honest hperm.nil_eq.symm hcreate
    · obtain ⟨rest, -, -, -, rfl⟩ := Script.runs_note_bind.1 hnote
      exact ask_createVolume_supplied honest hperm.nil_eq.symm hcreate
  | found v =>
    rw [hm] at hrest
    obtain ⟨rest, -, -, -, rfl⟩ := Script.runs_note_bind.1 hrest
    exact unchanged
  | conflict vs =>
    rw [hm] at hrest
    obtain ⟨-, -, rfl⟩ := hrest
    exact unchanged

theorem resolveStorage_supplies (honest : engine.Honest) (resolved : SortedMap String String)
    (names : List String) :
    (resolveStorage ctx resolved names).Supplies engine ctx.component (names.map .storage) := by
  induction names generalizing resolved with
  | nil => exact Script.supplies_done resolved
  | cons k rest ih => exact (resolveVolume_supplies honest (.storage k)).bind fun _ => ih _

theorem resolveSupervisor_supplies (honest : engine.Honest) (needsSupervisor : Bool) :
    (resolveSupervisor ctx needsSupervisor).Supplies engine ctx.component
      (if needsSupervisor then [.supervisor] else []) := by
  cases needsSupervisor with
  | false => exact Script.supplies_done none
  | true => exact (resolveVolume_supplies honest .supervisor).bind_done _

/-- **Resolving, however it ends.** Some of the needed roles that had no volume have one more, and
nothing else is different. -/
theorem resolveVolumes_supplies (honest : engine.Honest) (components : List Component)
    (needsSupervisor : Bool) :
    (resolveVolumes ctx components needsSupervisor).Supplies engine ctx.component
      (neededRoles components needsSupervisor) := by
  rw [neededRoles, List.append_assoc]
  exact (resolveVolume_supplies honest .projectSource).bind fun _ =>
    (resolveSupervisor_supplies honest needsSupervisor).bind fun _ =>
      (resolveStorage_supplies honest ∅ _).bind_done _

/-- Resolving asks for nothing but volumes. -/
theorem resolveVolumes_asks (components : List Component) (needsSupervisor : Bool) :
    (resolveVolumes ctx components needsSupervisor).Asks fun r => r.onVolumes = true :=
  Script.closed_asks.plain.resolveVolumes (fun _ hr => Script.asks_ask hr _ _) components needsSupervisor

end DevfilePush
