import DevfilePush.Proofs.Engine.Looking
import DevfilePush.Proofs.Labels
import DevfilePush.Volume.Resolve

/-!
# What resolving volumes leaves

A push looks its volumes up by role, one after another, and makes those that are missing. When it has
all of them, each role that it needs has exactly one volume, under the name that the push goes on with:
what is made for one role is never taken for another. Where every role has its volume already, resolving
only looks, and finds the same names whatever the order in which they are declared.

## Main definitions

* `Holdings.HasVolume`: a role's only volume and its name.
* `Holdings.KeepsVolumes`: what has a volume still has it.
* `VolumeNames.AreHeld`: the names of the only volumes of all roles that a push needs.

## Main statements

* `resolveVolumes_ok`: the names resolved are those of the only volumes.
* `resolveVolumes_finds`: resolving again only looks.
-/

namespace DevfilePush

/-- A role has exactly one volume in a component, and that is its name. -/
def Holdings.HasVolume (h : Holdings) (component : String) (role : VolumeRole) (name : String) :
    Prop :=
  ∃ v, h.volumesWith (role.labels component) = [v] ∧ v.name = name

/-- The containers are the same, and each role that had its only volume still has that one. -/
structure Holdings.KeepsVolumes (before after : Holdings) : Prop where
  containers : after.containers = before.containers
  hasVolume : ∀ {component : String} {role : VolumeRole} {name : String},
    before.HasVolume component role name → after.HasVolume component role name

/-- The names are those of the only volumes of the roles that a push needs. -/
structure VolumeNames.AreHeld (names : VolumeNames) (h : Holdings) (component : String)
    (wanted : List String) (needsSupervisor : Bool) : Prop where
  projectSource : h.HasVolume component .projectSource names.projectSource
  supervisor : if needsSupervisor
    then ∃ name, names.supervisor = some name ∧ h.HasVolume component .supervisor name
    else names.supervisor = none
  declared : ∀ k ∈ wanted,
    ∃ name, names.storage.get? k = some name ∧ h.HasVolume component (.storage k) name
  undeclared : ∀ k ∉ wanted, names.storage.get? k = none

namespace Holdings

variable {h k : Holdings} {component : String} {role : VolumeRole} {name : String}

theorem HasVolume.congr (hn : h.HasVolume component role name) (same : k.volumes = h.volumes) :
    k.HasVolume component role name := by
  obtain ⟨v, hv, hname⟩ := hn
  exact ⟨v, (volumesWith_congr same _).trans hv, hname⟩

/-- A volume made for a role that had none is that role's only volume. -/
theorem hasVolume_addVolume {v : Volume} (hlabels : v.labels = role.labels component)
    (hnone : h.volumesWith (role.labels component) = []) :
    (h.addVolume v).HasVolume component role v.name := by
  refine ⟨v, ?_, rfl⟩
  rw [volumesWith_addVolume, hnone, hlabels, Labels.selects_self]
  rfl

/-- A volume made for a role that had none leaves every other role its volume. -/
theorem HasVolume.addVolume (hn : h.HasVolume component role name) {v : Volume} {other : VolumeRole}
    {component' : String} (hlabels : v.labels = other.labels component')
    (hnone : h.volumesWith (other.labels component') = []) :
    (h.addVolume v).HasVolume component role name := by
  obtain ⟨w, hw, hname⟩ := hn
  refine ⟨w, ?_, hname⟩
  have hne : (role.labels component).selects (other.labels component') = false := by
    rw [Bool.eq_false_iff]
    intro hsel
    obtain ⟨rfl, rfl⟩ := VolumeRole.labels_selects_labels.1 hsel
    rw [hnone] at hw
    cases hw
  rw [volumesWith_addVolume, hlabels, hne, hw]
  rfl

theorem KeepsVolumes.refl (h : Holdings) : h.KeepsVolumes h := ⟨rfl, id⟩

theorem KeepsVolumes.trans {l : Holdings} (hk : h.KeepsVolumes k) (kl : k.KeepsVolumes l) :
    h.KeepsVolumes l :=
  ⟨kl.containers.trans hk.containers, kl.hasVolume ∘ hk.hasVolume⟩

end Holdings

/-- Names that are held in some holdings are held wherever the volumes are the same. -/
theorem VolumeNames.AreHeld.congr {names : VolumeNames} {h k : Holdings} {component : String}
    {wanted : List String} {needsSupervisor : Bool} (held : names.AreHeld h component wanted needsSupervisor)
    (same : k.volumes = h.volumes) : names.AreHeld k component wanted needsSupervisor where
  projectSource := held.projectSource.congr same
  supervisor := by
    have hsupervisor := held.supervisor
    cases needsSupervisor with
    | false => exact hsupervisor
    | true =>
      obtain ⟨name, hname, hheld⟩ := hsupervisor
      exact ⟨name, hname, hheld.congr same⟩
  declared k hk := by
    obtain ⟨name, hname, hheld⟩ := held.declared k hk
    exact ⟨name, hname, hheld.congr same⟩
  undeclared := held.undeclared

/-- Only which names are wanted matters, not their order. -/
theorem VolumeNames.AreHeld.congr_wanted {names : VolumeNames} {h : Holdings} {component : String}
    {wanted wanted' : List String} {needsSupervisor : Bool}
    (held : names.AreHeld h component wanted needsSupervisor) (same : ∀ k, k ∈ wanted' ↔ k ∈ wanted) :
    names.AreHeld h component wanted' needsSupervisor where
  projectSource := held.projectSource
  supervisor := held.supervisor
  declared k hk := held.declared k ((same k).1 hk)
  undeclared k hk := held.undeclared k (mt (same k).2 hk)

/-- Adding what is not there yet keeps each element at its first occurrence. -/
theorem foldl_add_eq (mounts : List VolumeMount) (names : List String) :
    mounts.foldl (fun names mount => if mount.name ∈ names then names else names ++ [mount.name]) names =
      names ++ ((mounts.map (·.name)).filter (· ∉ names)).eraseDups := by
  induction mounts generalizing names with
  | nil => simp
  | cons m mounts ih =>
    rw [List.foldl_cons, ih, List.map_cons]
    by_cases hmem : m.name ∈ names
    · rw [if_pos hmem, List.filter_cons_of_neg (by simpa using hmem)]
    · rw [if_neg hmem, List.filter_cons_of_pos (by simpa using hmem), List.eraseDups_cons,
        List.filter_filter, List.append_assoc, List.singleton_append]
      congr 3
      apply List.filter_congr
      intro name _
      rw [Bool.eq_iff_iff]
      simp [and_comm]

/-- The names to resolve are the declared ones, each at its first occurrence. -/
theorem storageNames_eq (components : List Component) :
    storageNames components = ((components.flatMap (·.volumeMounts)).map (·.name)).eraseDups := by
  rw [storageNames, foldl_add_eq, List.nil_append, List.filter_eq_self.2 (by simp)]

/-- What is kept at first occurrences is kept once. -/
theorem nodup_eraseDups {α : Type} [DecidableEq α] : ∀ xs : List α, xs.eraseDups.Nodup
  | [] => List.nodup_nil
  | x :: xs => by
    rw [List.eraseDups_cons, List.nodup_cons, List.mem_eraseDups]
    exact ⟨by simp, nodup_eraseDups _⟩
termination_by xs => xs.length
decreasing_by exact Nat.lt_succ_of_le (List.length_filter_le _ _)

/-- The names to resolve are those that are mounted somewhere. -/
theorem mem_storageNames {components : List Component} {k : String} :
    k ∈ storageNames components ↔ ∃ c ∈ components, ∃ m ∈ c.volumeMounts, m.name = k := by
  rw [storageNames_eq, List.mem_eraseDups, List.mem_map]
  constructor
  · rintro ⟨m, hm, hk⟩
    obtain ⟨c, hc, hm⟩ := List.mem_flatMap.1 hm
    exact ⟨c, hc, m, hm, hk⟩
  · rintro ⟨c, hc, m, hm, hk⟩
    exact ⟨m, List.mem_flatMap.2 ⟨c, hc, hm⟩, hk⟩

/-! ## Resolving -/

variable {ctx : Context} {engine : Conduct} {before after : Holdings} {trace : List Happening}

/-- A look that ends well has shown what the role has, in some order. -/
theorem lookupVolume_ok (honest : engine.Honest) {role : VolumeRole} {looked : Lookup Volume}
    (run : (lookupVolume ctx role).Runs engine before trace (.ok looked) after) :
    ∃ found, List.Perm found (before.volumesWith (role.labels ctx.component)) ∧
      looked = .ofMatches found ∧ after = before := by
  obtain ⟨inner, hask, hlooked⟩ := Script.runs_bind_done.1 run
  cases inner with
  | error e => cases hlooked
  | ok found =>
    obtain ⟨hperm, rfl⟩ := honest.granted (Script.runs_ask_ok.1 hask).1
    exact ⟨found, hperm, Except.ok.inj hlooked, rfl⟩

/-- What resolving a role does: it takes the role's only volume, or makes one where there is none. -/
theorem resolveVolume_ok (honest : engine.Honest) {role : VolumeRole} {volume : ServingVolume}
    (run : (resolveVolume ctx role).Runs engine before trace (.ok volume) after) :
    (∃ v, before.volumesWith (role.labels ctx.component) = [v] ∧ volume.name = v.name ∧
      after = before) ∨
    (before.volumesWith (role.labels ctx.component) = [] ∧
      ∃ v : Volume, v.labels = role.labels ctx.component ∧ volume.name = v.name ∧
        after = before.addVolume v) := by
  obtain ⟨looked, middle, t₁, t₂, hlook, hrest, rfl⟩ := Script.runs_bind_ok.1 run
  obtain ⟨found, hperm, rfl, rfl⟩ := lookupVolume_ok honest hlook
  cases hm : Lookup.ofMatches found with
  | missing =>
    obtain rfl := Lookup.ofMatches_eq_missing.1 hm
    rw [hm] at hrest
    simp only [Script.runs_bind_ok, Script.runs_note] at hrest
    obtain ⟨v, m', t₅, t₆, hcreate, ⟨_, _, _, _, ⟨-, -, rfl⟩, ⟨-, hv, rfl⟩, -⟩, -⟩ := hrest
    obtain ⟨hlabels, rfl⟩ := honest.granted (Script.runs_ask_ok.1 hcreate).1
    exact .inr ⟨hperm.nil_eq.symm, v, hlabels, by rw [Except.ok.inj hv], rfl⟩
  | found v =>
    obtain rfl := Lookup.ofMatches_eq_found.1 hm
    rw [hm] at hrest
    simp only [Script.runs_bind_ok, Script.runs_note] at hrest
    obtain ⟨_, _, _, _, ⟨-, -, rfl⟩, ⟨-, hv, rfl⟩, -⟩ := hrest
    exact .inl ⟨v, List.perm_singleton.1 hperm.symm, by rw [Except.ok.inj hv], rfl⟩
  | conflict vs =>
    rw [hm] at hrest
    cases (Script.runs_fail.1 hrest).2.1

/-- A role that is resolved has its only volume, and every other role has what it had. -/
theorem resolveVolume_held (honest : engine.Honest) {role : VolumeRole} {volume : ServingVolume}
    (run : (resolveVolume ctx role).Runs engine before trace (.ok volume) after) :
    after.HasVolume ctx.component role volume.name ∧ before.KeepsVolumes after := by
  rcases resolveVolume_ok honest run with ⟨v, hv, hname, rfl⟩ | ⟨hnone, v, hlabels, hname, rfl⟩
  · exact ⟨⟨v, hv, hname.symm⟩, .refl _⟩
  · rw [hname]
    exact ⟨Holdings.hasVolume_addVolume hlabels hnone, rfl, fun held => held.addVolume hlabels hnone⟩

/-- Every declared name that is resolved has its only volume, and nothing else is added to the names. -/
theorem resolveStorage_held (honest : engine.Honest) {resolved storage : SortedMap String String}
    {names : List String}
    (run : (resolveStorage ctx resolved names).Runs engine before trace (.ok storage) after) :
    (∀ k ∈ names, ∃ name, storage.get? k = some name ∧
      after.HasVolume ctx.component (.storage k) name) ∧
    (∀ k ∉ names, storage.get? k = resolved.get? k) ∧ before.KeepsVolumes after := by
  induction names generalizing resolved before trace with
  | nil =>
    obtain ⟨-, hv, rfl⟩ := run
    obtain rfl := Except.ok.inj hv
    exact ⟨by simp, fun _ _ => rfl, .refl _⟩
  | cons k rest ih =>
    obtain ⟨volume, middle, t₁, t₂, hfirst, hrest, rfl⟩ := Script.runs_bind_ok.1 run
    obtain ⟨hheld, hkeeps⟩ := resolveVolume_held honest hfirst
    obtain ⟨hin, hout, hkeeps'⟩ := ih hrest
    refine ⟨?_, ?_, hkeeps.trans hkeeps'⟩
    · intro j hj
      by_cases hmem : j ∈ rest
      · exact hin j hmem
      · -- the name comes last at `k`, so what was resolved there stands
        obtain rfl : j = k := (List.mem_cons.1 hj).resolve_right hmem
        refine ⟨volume.name, ?_, hkeeps'.hasVolume hheld⟩
        rw [hout j hmem, SortedMap.get?_insert, if_pos rfl]
    · intro j hj
      have hjk : j ≠ k := fun h => hj (h ▸ List.mem_cons_self)
      have hmem : j ∉ rest := fun h => hj (List.mem_cons_of_mem k h)
      rw [hout j hmem, SortedMap.get?_insert, if_neg hjk]

variable {components : List Component} {needsSupervisor : Bool} {names : VolumeNames}

/-- The names that a push goes on with are those of the only volumes of the roles that it needs. -/
theorem resolveVolumes_ok (honest : engine.Honest)
    (run : (resolveVolumes ctx components needsSupervisor).Runs engine before trace (.ok names) after) :
    names.AreHeld after ctx.component (storageNames components) needsSupervisor ∧
      before.KeepsVolumes after := by
  obtain ⟨projects, m₁, t₁, t₂, hprojects, hrest, rfl⟩ := Script.runs_bind_ok.1 run
  obtain ⟨supervisor, m₂, t₃, t₄, hsupervisor, hlast, rfl⟩ := Script.runs_bind_ok.1 hrest
  obtain ⟨storage, m₃, t₅, t₆, hstorage, ⟨-, hv, rfl⟩, rfl⟩ := Script.runs_bind_ok.1 hlast
  obtain rfl := Except.ok.inj hv
  obtain ⟨hheld, hkeeps⟩ := resolveVolume_held honest hprojects
  obtain ⟨hin, hout, hkeeps'⟩ := resolveStorage_held honest hstorage
  cases needsSupervisor with
  | false =>
    obtain ⟨-, hs, rfl⟩ := hsupervisor
    exact ⟨⟨hkeeps'.hasVolume hheld, Except.ok.inj hs, hin, hout⟩, hkeeps.trans hkeeps'⟩
  | true =>
    obtain ⟨volume, m, t, t', hvolume, ⟨-, hs, rfl⟩, -⟩ := Script.runs_bind_ok.1 hsupervisor
    obtain ⟨hheld', hkeeps''⟩ := resolveVolume_held honest hvolume
    refine ⟨⟨hkeeps'.hasVolume (hkeeps''.hasVolume hheld), ?_, hin, hout⟩,
      hkeeps.trans (hkeeps''.trans hkeeps')⟩
    exact ⟨volume.name, Except.ok.inj hs, hkeeps'.hasVolume hheld'⟩

/-! ## Resolving again -/

/-- A role that has its only volume is resolved by one look. -/
theorem resolveVolume_finds (honest : engine.Honest) (faultless : engine.Faultless)
    {role : VolumeRole} {name : String} (held : before.HasVolume ctx.component role name) :
    (resolveVolume ctx role).Finds engine before ⟨name, false⟩ := by
  obtain ⟨v, hv, rfl⟩ := held
  have hlisted : before.Grants (.listVolumes (role.labels ctx.component)) [v] before :=
    ⟨.of_eq hv.symm, rfl⟩
  have hask : (Script.ask ctx.component ctx.config.callDeadline
      (.listVolumes (role.labels ctx.component))).Finds engine before [v] := by
    refine Script.finds_ask honest faultless rfl hlisted ?_ _ _
    rintro other after ⟨hperm, -⟩
    rw [hv] at hperm
    exact List.perm_singleton.1 hperm
  have hlook : (lookupVolume ctx role).Finds engine before (.found v) :=
    hask.bind (Script.finds_done _)
  exact hlook.bind ((Script.finds_note _).bind (Script.finds_done _))

/-- Declared names that have their only volumes are resolved by looking, to a map that holds these and
what was resolved before. -/
theorem resolveStorage_finds (honest : engine.Honest) (faultless : engine.Faultless)
    {resolved storage : SortedMap String String} {names : List String}
    (hin : ∀ k ∈ names, ∃ name, storage.get? k = some name ∧
      before.HasVolume ctx.component (.storage k) name)
    (hout : ∀ k ∉ names, storage.get? k = resolved.get? k) :
    (resolveStorage ctx resolved names).Finds engine before storage := by
  induction names generalizing resolved with
  | nil =>
    have hsame : storage = resolved := SortedMap.ext_get? fun k => hout k List.not_mem_nil
    rw [hsame]
    exact Script.finds_done _
  | cons k rest ih =>
    obtain ⟨name, hname, hheld⟩ := hin k List.mem_cons_self
    refine (resolveVolume_finds honest faultless hheld).bind (ih ?_ ?_)
    · exact fun j hj => hin j (List.mem_cons_of_mem k hj)
    · intro j hj
      rw [SortedMap.get?_insert]
      by_cases hjk : j = k
      · rw [if_pos hjk, hjk, hname]
      · rw [if_neg hjk]
        exact hout j (List.not_mem_cons_of_ne_of_not_mem hjk hj)

/-- Where every role that a push needs has its only volume, resolving finds their names by looking. -/
theorem resolveVolumes_finds (honest : engine.Honest) (faultless : engine.Faultless)
    (held : names.AreHeld before ctx.component (storageNames components) needsSupervisor) :
    (resolveVolumes ctx components needsSupervisor).Finds engine before names := by
  refine (resolveVolume_finds honest faultless held.projectSource).bind ?_
  have hsupervisor : (resolveSupervisor ctx needsSupervisor).Finds engine before names.supervisor := by
    cases needsSupervisor with
    | false =>
      have hnone : names.supervisor = none := held.supervisor
      rw [hnone]
      exact Script.finds_done _
    | true =>
      obtain ⟨name, hname, hheld⟩ := held.supervisor
      rw [hname]
      exact (resolveVolume_finds honest faultless hheld).bind (Script.finds_done _)
  have hstorage : (resolveStorage ctx ∅ (storageNames components)).Finds engine before names.storage :=
    resolveStorage_finds honest faultless held.declared held.undeclared
  exact hsupervisor.bind (hstorage.bind (Script.finds_done _))

end DevfilePush
