import DevfilePush.Proofs.Engine.Twins
import DevfilePush.Volume.Resolve

/-!
# Resolving volumes under a renaming

A role's volume is found by its labels, and what it is called is only passed on. Where the volumes are
called otherwise, the same ones are found or made, and their names are the other ones.

## Main definitions

* `Renaming.MatchesNames`: the names that a push mounts, before and after a renaming.

## Main statements

* `Lookup.ofMatches_renamed`: what a query finds does not depend on names or on the order of a listing.
* `resolveVolumes_twins`: the volumes of a push.
-/

namespace DevfilePush

variable {commandLine : ContainerConfig → String} {π : Renaming} {ctx : Context} {h : Holdings}

/-- A query that has the same matches, up to what becomes of each and up to their order, has the same
outcome. -/
theorem Lookup.ofMatches_renamed {α β : Type} {f : α → β} {found : List α} {found' : List β}
    (same : found'.Perm (found.map f)) :
    (ofMatches found = .missing ∧ ofMatches found' = .missing) ∨
    (∃ a, found = [a] ∧ ofMatches found = .found a ∧ ofMatches found' = .found (f a)) ∨
    ∃ as bs, ofMatches found = .conflict as ∧ ofMatches found' = .conflict bs ∧
      bs.length = as.length := by
  rcases found with _ | ⟨a, _ | ⟨a', rest⟩⟩
  · obtain rfl := same.eq_nil
    exact .inl ⟨rfl, rfl⟩
  · obtain rfl := List.perm_singleton.1 same
    exact .inr (.inl ⟨a, rfl, rfl, rfl⟩)
  · have hlength : found'.length = rest.length + 2 := by simpa using same.length_eq
    have hconflict : ofMatches found' = .conflict found' :=
      ofMatches_eq_conflict.2 ⟨rfl, by omega⟩
    exact .inr (.inr ⟨_, _, rfl, hconflict, by simpa using hlength⟩)

/-- The names that a push mounts, before and after a renaming. -/
structure Renaming.MatchesNames (π : Renaming) (names names' : VolumeNames) : Prop where
  projectSource : names'.projectSource = π.names names.projectSource
  supervisor : names'.supervisor = names.supervisor.map π.names
  storage : ∀ name, names'.storage.get? name = (names.storage.get? name).map π.names

/-- The same volume serves the role. -/
theorem resolveVolume_twins (role : VolumeRole) :
    (resolveVolume ctx role).Twins commandLine π ctx.component
      (fun handle handle' _ => handle'.name = π.names handle.name) (resolveVolume ctx role) h := by
  have howner : (role.labels ctx.component).owner? = some ctx.component :=
    VolumeRole.get?_labels_component
  have hlist : (Script.ask ctx.component ctx.config.callDeadline
      (.listVolumes (role.labels ctx.component))).Twins commandLine π ctx.component
      (fun found found' _ => List.Perm found' (List.map π.volume found))
      (Script.ask ctx.component ctx.config.callDeadline (.listVolumes (role.labels ctx.component))) h :=
    Script.twins_ask (r := .listVolumes _) howner fun _ _ _ _ _ same => same
  have hcreate : ∀ k, (Script.ask ctx.component ctx.config.callDeadline
      (.createVolume (role.stem ctx.component) (role.labels ctx.component))).Twins commandLine π
      ctx.component (fun volume volume' _ => volume' = π.volume volume)
      (Script.ask ctx.component ctx.config.callDeadline
        (.createVolume (role.stem ctx.component) (role.labels ctx.component))) k :=
    fun k => Script.twins_ask (r := .createVolume _ _) howner fun _ _ _ _ _ same => same
  have hlook : (lookupVolume ctx role).Twins commandLine π ctx.component
      (fun looked looked' _ => ∃ found found', List.Perm found' (List.map π.volume found) ∧
        looked = .ofMatches found ∧ looked' = .ofMatches found') (lookupVolume ctx role) h :=
    hlist.bind fun found found' _ same => ⟨found, found', same, rfl, rfl⟩
  refine hlook.bind ?_
  rintro looked looked' k ⟨found, found', same, rfl, rfl⟩
  rcases Lookup.ofMatches_renamed same with ⟨hfound, hfound'⟩ | ⟨volume, -, hfound, hfound'⟩ |
    ⟨volumes, volumes', hfound, hfound', hlength⟩
  · rw [hfound, hfound']
    refine (hcreate k).bind ?_
    rintro volume volume' l rfl
    exact rfl
  · rw [hfound, hfound']
    exact rfl
  · rw [hfound, hfound']
    exact congrArg (PushError.duplicateVolumes ctx.component role.text) hlength

theorem resolveStorage_twins {resolved resolved' : SortedMap String String} (names : List String)
    (same : ∀ name, resolved'.get? name = (resolved.get? name).map π.names) :
    (resolveStorage ctx resolved names).Twins commandLine π ctx.component
      (fun storage storage' _ => ∀ name, storage'.get? name = (storage.get? name).map π.names)
      (resolveStorage ctx resolved' names) h := by
  induction names generalizing resolved resolved' h with
  | nil => exact same
  | cons name rest ih =>
    refine (resolveVolume_twins (.storage name)).bind fun handle handle' k hhandle => ih fun other => ?_
    rw [SortedMap.get?_insert, SortedMap.get?_insert]
    split
    · exact congrArg some hhandle
    · exact same other

theorem resolveSupervisor_twins (needsSupervisor : Bool) :
    (resolveSupervisor ctx needsSupervisor).Twins commandLine π ctx.component
      (fun name name' _ => name' = name.map π.names) (resolveSupervisor ctx needsSupervisor) h := by
  cases needsSupervisor with
  | false => exact rfl
  | true => exact (resolveVolume_twins .supervisor).bind fun _ _ _ hhandle => congrArg some hhandle

/-- **Volumes.** The same volumes are resolved, by their other names. -/
theorem resolveVolumes_twins (ctx : Context) (components : List Component) (needsSupervisor : Bool) :
    (resolveVolumes ctx components needsSupervisor).Twins commandLine π ctx.component
      (fun names names' _ => π.MatchesNames names names')
      (resolveVolumes ctx components needsSupervisor) h :=
  (resolveVolume_twins .projectSource).bind fun _ _ _ hsource =>
    (resolveSupervisor_twins needsSupervisor).bind fun _ _ _ hsupervisor =>
      (resolveStorage_twins _ fun _ => rfl).bind fun _ _ _ hstorage =>
        ⟨hsource, hsupervisor, hstorage⟩

end DevfilePush
