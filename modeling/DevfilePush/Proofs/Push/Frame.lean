import DevfilePush.Proofs.Container.Revision
import DevfilePush.Proofs.Push.Convergence
import DevfilePush.Proofs.Push.Phases
import DevfilePush.Proofs.Volume.Supply

/-!
# What a push touches

A push succeeds or fails, at any of its calls, and among whatever resources other components, other
aliases and other programs have made. It never takes a volume away, it takes a container away only if
this was the only one of a declared alias and not what the alias has to be running, and what it adds are
single volumes of missing roles and single containers of declared aliases.

## Main definitions

* `Push.Needs`: the roles that a push needs.
* `Push.Desires`: what a push wants an alias to run, by the URLs and volumes that it found.
* `Push.Frame`: what a push may add and take away.

## Main statements

* `Push.Frame.of_realize`, `Push.Proceeding.framed`: the phases of a push stay within its frame.
* `Push.frame`: so does every run of a push.
-/

namespace DevfilePush.Push

/-- The roles that a push needs: the project source, the supervisor if there is a run command, and each
name that a container mounts. -/
def Needs (p : Push) : VolumeRole → Prop
  | .projectSource => True
  | .supervisor => p.commands.run.isSome = true
  | .storage name => ∃ c ∈ p.components, ∃ m ∈ c.volumeMounts, m.name = name

/-- What a push wants a container to run, going by the URLs that were loaded and by the volumes that
its own first calls resolved. -/
def Desires (p : Push) (config : ValidConfig) (listing : UrlListing) (engine : Conduct)
    (before : Holdings) (trace : List Happening) (c : Component) (desired : Definition) : Prop :=
  ∃ urls names middle t rest, listing.urls = .ok urls ∧ trace = p.opening listing ++ (t ++ rest) ∧
    (resolveVolumes (p.context config) p.components p.commands.run.isSome).Runs engine before t
      (.ok names) middle ∧
    (p.blueprint urls names).desired (p.context config) c = .ok desired

/-- What a push may add and take away: one volume for each of `roles`, the containers `gone` and the
containers `made`. All that was there besides `gone` is still there, as it was. -/
structure Frame (p : Push) (config : ValidConfig) (listing : UrlListing) (engine : Conduct)
    (before : Holdings) (trace : List Happening) (after : Holdings) (roles : List VolumeRole)
    (gone made : List Running) : Prop where
  /-- Volumes are only added, one for each role, with exactly the role's labels. -/
  volumes : ∃ added : List Volume, after.volumes = before.volumes ++ added ∧
    added.map (·.labels) = roles.map (·.labels p.component)
  /-- Each role is one that the push needs. -/
  needed : ∀ role ∈ roles, p.Needs role
  /-- Each role had no volume. -/
  missing : ∀ role ∈ roles, before.volumesWith (role.labels p.component) = []
  /-- No role is given two volumes. -/
  distinct : roles.Nodup
  /-- All containers stay but those that are gone, and those that are made come after them. -/
  containers : after.containers = before.containers.filter (· ∉ gone) ++ made
  /-- What is gone was the only container of a declared alias and was not what that has to be running. -/
  outdated : ∀ r ∈ gone, ∃ c ∈ p.components, before.ofAlias p.component c.aliasName = [r] ∧
    ∃ desired, p.Desires config listing engine before trace c desired ∧
      desired.agrees r.definition = false
  /-- What is made carries the labels of a declared alias. -/
  labelled : ∀ r ∈ made, ∃ c ∈ p.components,
    (Labels.ofContainer p.component c.aliasName).selects r.live.labels = true
  /-- No alias is given two containers. -/
  once : (made.map (·.live.alias?)).Nodup

variable {p : Push} {config : ValidConfig} {listing : UrlListing} {engine : Conduct}
  {before middle after : Holdings} {trace : List Happening} {roles : List VolumeRole}
  {gone made : List Running}

/-- The roles that are resolved are those that the push needs. -/
theorem needs_of_mem {role : VolumeRole}
    (h : role ∈ neededRoles p.components p.commands.run.isSome) : p.Needs role := by
  cases role with
  | projectSource => trivial
  | supervisor =>
    by_cases hrun : p.commands.run.isSome = true
    · exact hrun
    · simp [neededRoles, hrun] at h
  | storage name =>
    have hname : name ∈ storageNames p.components := by
      by_cases hrun : p.commands.run.isSome = true
      · simpa [neededRoles, hrun] using h
      · simpa [neededRoles, hrun] using h
    exact mem_storageNames.1 hname

namespace Frame

variable {r : Running} {aliasName : String}

/-- What is gone carried a declared alias. -/
theorem alias_of_gone (h : p.Frame config listing engine before trace after roles gone made)
    (hr : r ∈ gone) : ∃ c ∈ p.components,
      r.live.labels.get? Conventions.aliasLabel = some c.aliasName := by
  obtain ⟨c, hc, only, -⟩ := h.outdated r hr
  exact ⟨c, hc, (Holdings.mem_ofAlias.1 (only ▸ List.mem_singleton_self r)).2.2⟩

/-- An alias that is not declared has the containers that it had. -/
theorem ofAlias_of_undeclared (h : p.Frame config listing engine before trace after roles gone made)
    (undeclared : aliasName ∉ p.components.map (·.aliasName)) (component : String) :
    after.ofAlias component aliasName = before.ofAlias component aliasName := by
  have hother : ∀ c ∈ p.components, some c.aliasName ≠ some aliasName := by
    intro c hc halias
    exact undeclared (List.mem_map.2 ⟨c, hc, Option.some.inj halias⟩)
  refine Holdings.ofAlias_of_containers h.containers ?_ ?_
  · intro r hr
    obtain ⟨c, hc, hlabel⟩ := h.alias_of_gone hr
    exact hlabel ▸ hother c hc
  · intro r hr
    obtain ⟨c, hc, hlabels⟩ := h.labelled r hr
    exact (Labels.ofContainer_selects_iff.1 hlabels).2 ▸ hother c hc

/-- Every container was there before, or it carries a declared alias. -/
theorem held_or_declared (h : p.Frame config listing engine before trace after roles gone made)
    (hr : r ∈ after.containers) :
    r ∈ before.containers ∨ ∃ c ∈ p.components, r ∈ after.ofAlias p.component c.aliasName := by
  have hmem := hr
  rw [h.containers, List.mem_append] at hmem
  rcases hmem with hold | hnew
  · exact .inl (List.mem_filter.1 hold).1
  · obtain ⟨c, hc, hlabels⟩ := h.labelled r hnew
    exact .inr ⟨c, hc, Holdings.mem_ofAlias.2 ⟨hr, Labels.ofContainer_selects_iff.1 hlabels⟩⟩

end Frame

/-- Supplying needed roles, and then revising containers by what the push wants, stays within the
frame. -/
theorem Frame.of_parts (needed : roles ⊆ neededRoles p.components p.commands.run.isSome)
    (supplied : before.Supplied middle p.component roles) {outdated : String → Running → Prop}
    (revised : middle.Revised after p.component (p.components.map (·.aliasName)) outdated gone made)
    (desires : ∀ a r, outdated a r → ∃ c ∈ p.components, c.aliasName = a ∧
      ∃ desired, p.Desires config listing engine before trace c desired ∧
        desired.agrees r.definition = false) :
    p.Frame config listing engine before trace after roles gone made where
  volumes := by
    rw [revised.volumes]
    exact supplied.volumes
  needed role hrole := needs_of_mem (needed hrole)
  missing := supplied.missing
  distinct := supplied.distinct
  containers := by
    rw [revised.containers, supplied.containers]
  outdated := by
    intro r hr
    obtain ⟨a, -, only, houtdated⟩ := revised.outdated r hr
    obtain ⟨c, hc, rfl, hdesired⟩ := desires a r houtdated
    refine ⟨c, hc, ?_, hdesired⟩
    rw [← only]
    exact (Holdings.containersWith_congr supplied.containers _).symm
  labelled := by
    intro r hr
    obtain ⟨a, ha, hlabels⟩ := revised.labelled r hr
    obtain ⟨c, hc, rfl⟩ := List.mem_map.1 ha
    exact ⟨c, hc, hlabels⟩
  once := revised.once

/-- Where no container was reconciled, only roles were supplied. -/
theorem Frame.of_supplied (needed : roles ⊆ neededRoles p.components p.commands.run.isSome)
    (supplied : before.Supplied after p.component roles) :
    p.Frame config listing engine before trace after roles [] [] :=
  .of_parts needed supplied (.refl _ _ _ fun _ _ => False) fun _ _ h => h.elim

/-- Resolving volumes and then revising containers, however that ends, stays within the frame. -/
theorem Frame.of_realize (honest : engine.Honest) (keepsIds : engine.KeepsIds) (ids : before.DistinctIds)
    {urls : List UrlRecord} (loaded : listing.urls = .ok urls) {t own rest : List Happening}
    {names : VolumeNames} {verdict : Except PushError ContainerReport}
    (resolved : (resolveVolumes (p.context config) p.components p.commands.run.isSome).Runs engine before
      t (.ok names) middle)
    (reconciled : ((p.blueprint urls names).realize (p.context config)).Runs engine middle own verdict
      after) :
    ∃ roles gone made,
      p.Frame config listing engine before (p.opening listing ++ (t ++ rest)) after roles gone made := by
  obtain ⟨roles, needed, supplied⟩ := resolveVolumes_supplies honest _ _ resolved
  obtain ⟨gone, made, revised⟩ := Blueprint.realize_revised honest keepsIds
    (resolved.distinctIds keepsIds ids) reconciled
  refine ⟨roles, gone, made, .of_parts needed supplied revised ?_⟩
  rintro a r ⟨c, hc, halias, desired, hdesired, differs⟩
  exact ⟨c, hc, halias, desired, ⟨urls, names, middle, t, rest, loaded, rfl, resolved, hdesired⟩, differs⟩

/-- Whatever phase a push ends in, it stays within the frame. -/
theorem Proceeding.framed {verdict : Except PushError PushReport}
    (proceeding : p.Proceeding config listing engine before trace verdict after)
    (honest : engine.Honest) (keepsIds : engine.KeepsIds) (ids : before.DistinctIds) :
    ∃ roles gone made, p.Frame config listing engine before trace after roles gone made := by
  cases proceeding with
  | checking | loading => exact ⟨[], [], [], .of_supplied (List.nil_subset _) (.refl _ _)⟩
  | resolving _ _ failed =>
    obtain ⟨roles, needed, supplied⟩ := resolveVolumes_supplies honest _ _ failed
    exact ⟨roles, [], [], .of_supplied needed supplied⟩
  | reconciling _ loaded resolved failed =>
    exact Frame.of_realize honest keepsIds ids loaded resolved failed
  | executing _ loaded resolved reconciled ended =>
    rw [execution_unchanged honest ended]
    exact Frame.of_realize honest keepsIds ids loaded resolved reconciled

/-- **Frame.** Whatever comes of a push and whatever the engine held, a push adds at most one volume to
each role that it needs and that had none, and at most one container to each declared alias; it takes a
container away only if that was the only one of a declared alias and did not agree with what the push
wants of the alias; and everything else stays as it was. -/
theorem frame (honest : engine.Honest) (keepsIds : engine.KeepsIds) (ids : before.DistinctIds)
    {verdict : Except PushError PushReport}
    (run : (p.script config listing).Runs engine before trace verdict after) :
    ∃ roles gone made, p.Frame config listing engine before trace after roles gone made :=
  (script_proceeding run).framed honest keepsIds ids

/-! ## A push that is cut off -/

/-- A push of two containers, the second of which runs an image by itself. -/
def samplePair (image : String) : Push :=
  { sample with components := [sampleComponent, Component.ofImage "db" image] }

/-- The course of a push of both containers on an engine that holds nothing. -/
def samplePairCourse : Course PushReport :=
  ((samplePair "postgres:16").script .standard sampleListing).follow .empty []

/-- The course of a push that wants another image for the second container, if its tenth call, by which
that container is created anew, meets a fate of its own. -/
def sampleCutCourse (fate : Fate) : Course PushReport :=
  ((samplePair "postgres:17").script .standard sampleListing).follow samplePairCourse.engine
    (List.replicate 9 (.served 0) ++ [fate])

theorem distinctIds_samplePairCourse : samplePairCourse.engine.holdings.DistinctIds := by
  have hrun : ((samplePair "postgres:16").script .standard sampleListing).Runs MemoryEngine.faulty ⟨[], []⟩
      samplePairCourse.happenings samplePairCourse.verdict samplePairCourse.engine.holdings :=
    MemoryEngine.runs_follow_faulty MemoryEngine.numbered_empty rfl
  exact hrun.distinctIds (MemoryEngine.keepsIds_conduct _) (by decide)

/-- A push whose last call happens but is not answered in time stays within its frame. -/
theorem frame_sample : ∃ roles gone made,
    (samplePair "postgres:17").Frame .standard sampleListing MemoryEngine.faulty
      samplePairCourse.engine.holdings (sampleCutCourse (.expired true)).happenings
      (sampleCutCourse (.expired true)).engine.holdings roles gone made :=
  frame (MemoryEngine.honest_conduct _) (MemoryEngine.keepsIds_conduct _) distinctIds_samplePairCourse
    (MemoryEngine.runs_follow_faulty (MemoryEngine.numbered_empty.follow _ _) rfl)

end DevfilePush.Push
