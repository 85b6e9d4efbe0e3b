import DevfilePush.Proofs.Container.Desired
import Mathlib.Data.List.Nodup
import Mathlib.Data.List.Perm.Basic
import Mathlib.Data.List.TakeWhile

/-!
# Declarations in another order

A container may declare its variables, endpoints and volume mounts in another order, and the URLs may be
listed in another order as long as none takes another's port. What it has to be running is then not the
same definition, as its lists are in another order too, but one that agrees with it.

## Main definitions

* `Component.Rearranges`: the same declaration in another order.
* `UrlRecord.Reorders`: the same URLs for a container, in an order that makes no difference to it.

## Main statements

* `PortMap.ofUrls_reordered`: the ports that are bound stay the same.
* `Blueprint.desired_rearranged`: the definition agrees.
-/

namespace DevfilePush

/-- The same declaration with its variables, endpoints and mounts in another order. -/
structure Component.Rearranges (c' c : Component) : Prop where
  aliasName : c'.aliasName = c.aliasName
  image : c'.image = c.image
  command : c'.command = c.command
  args : c'.args = c.args
  mountSources : c'.mountSources = c.mountSources
  env : c'.env.Perm c.env
  endpoints : c'.endpoints.Perm c.endpoints
  volumeMounts : c'.volumeMounts.Perm c.volumeMounts

/-- The same URLs, or the same in another order where no two of those that apply to the container share
a port. -/
def UrlRecord.Reorders (urls' urls : List UrlRecord) (c : Component) : Prop :=
  urls' = urls ∨ (urls'.Perm urls ∧ ((PortMap.applicable c urls).map (·.port)).Nodup)

/-! ## Ports -/

namespace PortMap

variable {c : Component} {urls urls' : List UrlRecord}

theorem stale?_eq_none_iff :
    stale? c urls = none ↔
      c.endpoints = [] ∨ ∀ url ∈ applicable c urls, c.declaresPort url.port = true := by
  unfold stale?
  by_cases hempty : c.endpoints = []
  · simp [hempty]
  · simp [hempty]

/-- If no URL is stale, all applicable URLs with a declared port are bound. -/
theorem bound_of_stale?_eq_none (h : stale? c urls = none) :
    bound c urls = (applicable c urls).filter fun url => c.declaresPort url.port := by
  unfold bound
  rcases stale?_eq_none_iff.1 h with hempty | hall
  · have hnone : ∀ port, c.declaresPort port = false := by
      intro port
      simp [Component.declaresPort, hempty]
    simp only [hnone]
    rw [List.filter_false]
    cases applicable c urls <;> rfl
  · rw [List.filter_eq_self.2 hall]
    exact List.takeWhile_eq_self_iff.2 hall

/-- URLs at different ports may be bound in either order. -/
theorem bind_comm (m : PortMap) {url other : UrlRecord} (hne : url.port ≠ other.port) :
    (m.bind url).bind other = (m.bind other).bind url := by
  have hurls : (m.urls.insert url.port url).insert other.port other =
      (m.urls.insert other.port other).insert url.port url := by
    apply SortedMap.ext_get?
    intro port
    simp only [SortedMap.get?_insert]
    by_cases hother : port = other.port
    · rw [if_pos hother, if_neg (fun h => hne (h.symm.trans hother)), if_pos hother]
    · rw [if_neg hother, if_neg hother]
  exact congrArg (PortMap.mk m.hostIp) hurls

/-- Bindings do not depend on the order of URLs that do not share ports. -/
theorem foldl_bind_perm (perm : urls'.Perm urls) (distinct : (urls.map (·.port)).Nodup) (m : PortMap) :
    urls'.foldl bind m = urls.foldl bind m := by
  refine perm.foldl_eq' ?_ m
  intro x hx y hy m'
  by_cases hport : x.port = y.port
  · have hxy : x = y := List.inj_on_of_nodup_map distinct (perm.subset hx) (perm.subset hy) hport
    rw [hxy]
  · exact bind_comm m' hport

/-- The ports that are bound to a container stay the same. -/
theorem ofUrls_reordered {component hostIp : String} {ports : PortMap}
    (same : UrlRecord.Reorders urls' urls c) (h : ofUrls component c urls hostIp = .ok ports) :
    ofUrls component c urls' hostIp = .ok ports := by
  obtain rfl | ⟨perm, distinct⟩ := same
  · exact h
  have hperm : (applicable c urls').Perm (applicable c urls) := perm.filter _
  have hstale : stale? c urls = none := by
    unfold ofUrls at h
    split at h
    · cases h
    · assumption
  have hstale' : stale? c urls' = none := by
    rw [stale?_eq_none_iff] at hstale ⊢
    exact hstale.imp_right fun hall url hurl => hall url (hperm.subset hurl)
  have hbound : (bound c urls').Perm (bound c urls) := by
    rw [bound_of_stale?_eq_none hstale, bound_of_stale?_eq_none hstale']
    exact hperm.filter _
  have hdistinct : ((bound c urls).map (·.port)).Nodup :=
    distinct.sublist ((List.takeWhile_sublist _).map _)
  simp only [ofUrls, hstale] at h
  simp only [ofUrls, hstale']
  rw [foldl_bind_perm hbound hdistinct]
  exact h

end PortMap

/-! ## Declarations -/

namespace Component.Rearranges

variable {c c' : Component}

theorem declaresEnv (same : c'.Rearranges c) (name : String) :
    c'.declaresEnv name = c.declaresEnv name :=
  same.env.any_eq

theorem declaresPort (same : c'.Rearranges c) (port : Port) :
    c'.declaresPort port = c.declaresPort port :=
  same.endpoints.any_eq

theorem wellFormed (same : c'.Rearranges c) (formed : c.WellFormed) : c'.WellFormed where
  aliasName := same.aliasName ▸ formed.aliasName
  image := same.image ▸ formed.image
  envNamed e he := formed.envNamed e (same.env.subset he)
  envDistinct := (same.env.map _).nodup_iff.2 formed.envDistinct

theorem applicable (same : c'.Rearranges c) (urls : List UrlRecord) :
    PortMap.applicable c' urls = PortMap.applicable c urls := by
  simp only [PortMap.applicable, UrlRecord.appliesTo, same.aliasName]

theorem ofUrls (same : c'.Rearranges c) (component : String) (urls : List UrlRecord) (hostIp : String) :
    PortMap.ofUrls component c' urls hostIp = PortMap.ofUrls component c urls hostIp := by
  have hempty : c'.endpoints.isEmpty = c.endpoints.isEmpty := by
    rw [Bool.eq_iff_iff, List.isEmpty_iff, List.isEmpty_iff]
    exact ⟨fun h => (h ▸ same.endpoints).nil_eq.symm, fun h => (h ▸ same.endpoints).eq_nil⟩
  simp only [PortMap.ofUrls, PortMap.stale?, PortMap.bound, same.applicable, same.declaresPort, hempty]

end Component.Rearranges

/-! ## Definitions -/

namespace Surroundings

variable {inputs : Surroundings} {c c' : Component}

theorem runFor_rearranged (same : c'.Rearranges c) : inputs.runFor c' = inputs.runFor c := by
  rw [runFor, runFor, same.aliasName]

theorem entrypoint_rearranged (same : c'.Rearranges c) :
    inputs.entrypoint c' = inputs.entrypoint c := by
  simp only [entrypoint, runFor_rearranged same, same.command, same.args]

theorem sourceMounts_rearranged (same : c'.Rearranges c) :
    inputs.sourceMounts c' = inputs.sourceMounts c := by
  rw [sourceMounts, sourceMounts, same.mountSources]

/-- The supervisor's mount depends only on the alias. -/
theorem supervisorMounts_rearranged (same : c'.Rearranges c) :
    inputs.supervisorMounts c' = inputs.supervisorMounts c := by
  simp only [supervisorMounts, runFor_rearranged same, same.aliasName]

/-- The variables are the same in another order. -/
theorem env_rearranged (same : c'.Rearranges c) : (inputs.env c').Perm (inputs.env c) := by
  have hadded : inputs.runEnv c' ++ sourceEnv c' = inputs.runEnv c ++ sourceEnv c := by
    simp only [runEnv, sourceEnv, runFor_rearranged same, same.mountSources]
  simp only [env, hadded, same.declaresEnv]
  exact (same.env.map _).append_right _

/-- The mounts of the declared volumes are the same in another order. -/
theorem storageMounts_rearranged (same : c'.Rearranges c) {mounts : List Mount}
    (h : inputs.storageMounts c = .ok mounts) :
    ∃ mounts', inputs.storageMounts c' = .ok mounts' ∧ mounts'.Perm mounts := by
  have hmounts := Except.mapM_ok_iff.1 h
  obtain ⟨mounts', hmounts', hperm⟩ := List.perm_comp_forall₂ same.volumeMounts hmounts
  refine ⟨mounts', Except.mapM_ok_iff.2 (hmounts'.imp fun m mount hm => ?_), hperm⟩
  split at hm
  · exact hm
  · cases hm

end Surroundings

namespace Blueprint

variable {ctx : Context} {b b' : Blueprint} {c c' : Component}

/-- **In another order.** A container that is declared in another order has to be running a definition
that agrees with the one it had to be running. -/
theorem desired_rearranged (same : c'.Rearranges c) (reordered : UrlRecord.Reorders b'.urls b.urls c)
    (volumes : b'.volumes = b.volumes) (runCommand : b'.runCommand = b.runCommand)
    {desired : Definition} (h : b.desired ctx c = .ok desired) :
    ∃ desired', b'.desired ctx c' = .ok desired' ∧ desired'.agrees desired = true := by
  obtain ⟨ports, hports, hbuild⟩ := desired_ok_iff.1 h
  obtain ⟨storage, supervisor, hstorage, hsupervisor, rfl⟩ := Definition.build_ok_iff.1 hbuild
  have hports' : PortMap.ofUrls ctx.component c' b'.urls ctx.config.hostIp = .ok ports := by
    rw [same.ofUrls]
    exact PortMap.ofUrls_reordered reordered hports
  have hinputs : b'.surroundings ctx = b.surroundings ctx := by
    rw [surroundings, surroundings, volumes, runCommand]
  obtain ⟨storage', hstorage', hperm⟩ := Surroundings.storageMounts_rearranged same hstorage
  rw [← Surroundings.supervisorMounts_rearranged same] at hsupervisor
  refine ⟨_, desired_ok_iff.2 ⟨ports, hports', Definition.build_ok_iff.2
    ⟨storage', supervisor, hinputs ▸ hstorage', hinputs ▸ hsupervisor, rfl⟩⟩, ?_⟩
  rw [hinputs, Definition.agrees_iff_forall]
  intro aspect
  cases aspect with
  | image => simp [Definition.agreesIn, same.image]
  | command => simp [Definition.agreesIn, Surroundings.entrypoint_rearranged same]
  | env => exact sameElements_of_perm (Surroundings.env_rearranged same)
  | mounts =>
    apply sameElements_of_perm
    rw [Surroundings.sourceMounts_rearranged same]
    exact (hperm.append_right _).append_right _
  | portBindings => exact sameElements_refl _

end Blueprint

end DevfilePush
