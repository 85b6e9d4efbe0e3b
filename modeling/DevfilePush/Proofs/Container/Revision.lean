import DevfilePush.Proofs.Container.Attempt

/-!
# What reconciling containers touches

However far reconciling comes, it takes away only containers that were the only ones of their aliases
and did not agree with what their aliases have to be running, and it adds at most one container for each
alias. All other containers stay as they are, among them those of other components and aliases, as no
container carries the labels of two aliases.

## Main definitions

* `Holdings.Revised`: some containers are gone and some are made, for certain aliases.
* `Blueprint.Outdated`: a container that is not what its alias has to be running.

## Main statements

* `Blueprint.Realizing.revised`: one container, by the ways that reconciling it can go.
* `Blueprint.realizeEach_revised`: containers in order, by induction on the list.
-/

namespace DevfilePush

/-- What containers are gone and made for some aliases: each that is gone was the only one of its alias
and outdated, each that is made carries the labels of its alias, and no alias is given two. -/
structure Holdings.Revised (before after : Holdings) (component : String) (aliases : List String)
    (outdated : String → Running → Prop) (gone made : List Running) : Prop where
  volumes : after.volumes = before.volumes
  containers : after.containers = before.containers.filter (· ∉ gone) ++ made
  outdated : ∀ r ∈ gone, ∃ a ∈ aliases, before.ofAlias component a = [r] ∧ outdated a r
  labelled : ∀ r ∈ made, ∃ a ∈ aliases,
    (Labels.ofContainer component a).selects r.live.labels = true
  once : (made.map (·.live.alias?)).Nodup

/-- If no container of an alias is gone and none is made, the alias has the containers that it had. -/
theorem Holdings.ofAlias_of_containers {before after : Holdings} {component aliasName : String}
    {gone made : List Running}
    (containers : after.containers = before.containers.filter (· ∉ gone) ++ made)
    (hgone : ∀ r ∈ gone, r.live.labels.get? Conventions.aliasLabel ≠ some aliasName)
    (hmade : ∀ r ∈ made, r.live.labels.get? Conventions.aliasLabel ≠ some aliasName) :
    after.ofAlias component aliasName = before.ofAlias component aliasName := by
  have hlabel : ∀ {r : Running}, (Labels.ofContainer component aliasName).selects r.live.labels = true →
      r.live.labels.get? Conventions.aliasLabel = some aliasName :=
    fun hselects => (Labels.ofContainer_selects_iff.1 hselects).2
  have hnone : made.filter (fun r => (Labels.ofContainer component aliasName).selects r.live.labels) =
      [] := by
    rw [List.filter_eq_nil_iff]
    exact fun r hr hselects => hmade r hr (hlabel hselects)
  rw [ofAlias, containersWith, containers, List.filter_append, hnone, List.append_nil,
    List.filter_filter]
  refine List.filter_congr fun r _ => ?_
  by_cases hselects : (Labels.ofContainer component aliasName).selects r.live.labels = true
  · have hkept : r ∉ gone := fun hr => hgone r hr (hlabel hselects)
    simp [hselects, hkept]
  · simp [hselects]

namespace Holdings.Revised

variable {before middle after : Holdings} {component aliasName : String} {aliases others : List String}
  {outdated : String → Running → Prop} {gone made gone' made' : List Running} {r : Running}

theorem refl (h : Holdings) (component : String) (aliases : List String)
    (outdated : String → Running → Prop) : h.Revised h component aliases outdated [] [] where
  volumes := rfl
  containers := by simp
  outdated := by simp
  labelled := by simp
  once := List.nodup_nil

/-- The only container of an alias is taken away. -/
theorem remove (ids : before.DistinctIds) (halias : aliasName ∈ aliases)
    (only : before.ofAlias component aliasName = [r]) (houtdated : outdated aliasName r) :
    before.Revised (before.removeContainer r.live.id) component aliases outdated [r] [] where
  volumes := rfl
  containers := by
    have hheld : r ∈ before.containers := (mem_ofAlias.1 (only ▸ List.mem_singleton_self r)).1
    rw [List.append_nil]
    refine List.filter_congr fun s hs => ?_
    have hid : s.live.id ≠ r.live.id ↔ s ∉ [r] := by
      rw [List.mem_singleton]
      exact not_congr ⟨fun h => ids.eq_of_id hs hheld h, fun h => h ▸ rfl⟩
    exact decide_eq_decide.2 hid
  outdated := by
    intro s hs
    rw [List.mem_singleton.1 hs]
    exact ⟨aliasName, halias, only, houtdated⟩
  labelled := by simp
  once := List.nodup_nil

/-- One container is added where none was made yet. -/
theorem add (h : before.Revised after component aliases outdated gone []) (halias : aliasName ∈ aliases)
    (hlabels : (Labels.ofContainer component aliasName).selects r.live.labels = true) :
    before.Revised (after.addContainer r) component aliases outdated gone [r] where
  volumes := h.volumes
  containers := by
    rw [addContainer, h.containers, List.append_nil]
  outdated := h.outdated
  labelled := by
    intro s hs
    rw [List.mem_singleton.1 hs]
    exact ⟨aliasName, halias, hlabels⟩
  once := List.nodup_singleton _

/-- What is gone carried the labels of one of the aliases. -/
theorem alias_of_gone (h : before.Revised after component aliases outdated gone made) (hr : r ∈ gone) :
    ∃ a ∈ aliases, r.live.labels.get? Conventions.aliasLabel = some a := by
  obtain ⟨a, ha, only, -⟩ := h.outdated r hr
  exact ⟨a, ha, (mem_ofAlias.1 (only ▸ List.mem_singleton_self r)).2.2⟩

/-- What is made carries the labels of one of the aliases. -/
theorem alias_of_made (h : before.Revised after component aliases outdated gone made) (hr : r ∈ made) :
    ∃ a ∈ aliases, r.live.labels.get? Conventions.aliasLabel = some a := by
  obtain ⟨a, ha, hlabels⟩ := h.labelled r hr
  exact ⟨a, ha, (Labels.ofContainer_selects_iff.1 hlabels).2⟩

/-- Other aliases have the containers that they had. -/
theorem ofAlias_of_not_mem (h : before.Revised after component aliases outdated gone made)
    (halias : aliasName ∉ aliases) :
    after.ofAlias component aliasName = before.ofAlias component aliasName := by
  refine ofAlias_of_containers h.containers ?_ ?_
  · rintro r hr hlabel
    obtain ⟨a, ha, hlabel'⟩ := h.alias_of_gone hr
    rw [hlabel] at hlabel'
    exact halias (Option.some.inj hlabel' ▸ ha)
  · rintro r hr hlabel
    obtain ⟨a, ha, hlabel'⟩ := h.alias_of_made hr
    rw [hlabel] at hlabel'
    exact halias (Option.some.inj hlabel' ▸ ha)

/-- Aliases are revised one after another if none comes twice. -/
theorem trans (h : before.Revised middle component aliases outdated gone made)
    (h' : middle.Revised after component others outdated gone' made')
    (disjoint : ∀ a ∈ aliases, a ∉ others) :
    before.Revised after component (aliases ++ others) outdated (gone ++ gone') (made ++ made') where
  volumes := h'.volumes.trans h.volumes
  containers := by
    -- nothing that was made for the first aliases is gone for the others
    have hkept : made.filter (· ∉ gone') = made := by
      rw [List.filter_eq_self]
      intro r hr
      rw [decide_eq_true_eq]
      intro hgone
      obtain ⟨a, ha, hlabel⟩ := h.alias_of_made hr
      obtain ⟨b, hb, hlabel'⟩ := h'.alias_of_gone hgone
      rw [hlabel] at hlabel'
      exact disjoint a ha (Option.some.inj hlabel' ▸ hb)
    rw [h'.containers, h.containers, List.filter_append, hkept, List.filter_filter, List.append_assoc]
    congr 1
    refine List.filter_congr fun r _ => ?_
    simp only [List.mem_append, not_or, Bool.decide_and, Bool.and_comm]
  outdated := by
    intro r hr
    rcases List.mem_append.1 hr with hr | hr
    · obtain ⟨a, ha, h⟩ := h.outdated r hr
      exact ⟨a, List.mem_append_left _ ha, h⟩
    · obtain ⟨a, ha, only, houtdated⟩ := h'.outdated r hr
      rw [h.ofAlias_of_not_mem fun hmem => disjoint a hmem ha] at only
      exact ⟨a, List.mem_append_right _ ha, only, houtdated⟩
  labelled := by
    intro r hr
    rcases List.mem_append.1 hr with hr | hr
    · obtain ⟨a, ha, hlabels⟩ := h.labelled r hr
      exact ⟨a, List.mem_append_left _ ha, hlabels⟩
    · obtain ⟨a, ha, hlabels⟩ := h'.labelled r hr
      exact ⟨a, List.mem_append_right _ ha, hlabels⟩
  once := by
    rw [List.map_append, List.nodup_append]
    refine ⟨h.once, h'.once, ?_⟩
    intro x hx y hy hxy
    obtain ⟨r, hr, rfl⟩ := List.mem_map.1 hx
    obtain ⟨s, hs, rfl⟩ := List.mem_map.1 hy
    obtain ⟨a, ha, hlabel⟩ := h.alias_of_made hr
    obtain ⟨b, hb, hlabel'⟩ := h'.alias_of_made hs
    rw [ListedContainer.alias?, ListedContainer.alias?, hlabel, hlabel'] at hxy
    exact disjoint a ha (Option.some.inj hxy ▸ hb)

end Holdings.Revised

/-! ## Reconciling, however it ends -/

variable {ctx : Context} {engine : Conduct} {before after : Holdings} {calls : List Happening}
  {c : Component} {desired : Definition}

/-- Starting a container adds one or none. -/
theorem Starting.effect (honest : engine.Honest) {verdict : Except PushError String}
    (starting : Starting engine c desired before calls verdict after) :
    after = before ∨ ∃ r : Running, r.live.labels = desired.config.labels ∧ r.definition = desired ∧
      after = before.addContainer r := by
  have hcreate : ∀ {answer : Answer (Request.createContainer desired).Reply},
      engine before (.createContainer desired) answer after →
      after = before ∨ ∃ r : Running, r.live.labels = desired.config.labels ∧ r.definition = desired ∧
        after = before.addContainer r := by
    intro answer met
    rcases honest.effect met with h | ⟨id, r, -, hlabels, hdefinition, h⟩
    · exact .inl h
    · exact .inr ⟨r, hlabels, hdefinition, h⟩
  cases starting with
  | pullFails => exact .inl rfl
  | createFails _ met => exact hcreate met
  | created met => exact hcreate met

namespace Blueprint

variable {b : Blueprint}

/-- A container that is not what its alias has to be running. -/
def Outdated (b : Blueprint) (ctx : Context) (aliasName : String) (r : Running) : Prop :=
  ∃ c ∈ b.components, c.aliasName = aliasName ∧
    ∃ desired, b.desired ctx c = .ok desired ∧ desired.agrees r.definition = false

/-- **One container, however it ends.** At most the only container of the alias is gone, if it was
outdated, and at most one is made. -/
theorem Realizing.revised (honest : engine.Honest) (ids : before.DistinctIds) (hc : c ∈ b.components)
    {verdict : Except PushError ContainerRecord}
    (realizing : b.Realizing ctx engine c before calls verdict after) :
    ∃ gone made, before.Revised after ctx.component [c.aliasName] (b.Outdated ctx) gone made := by
  have hself : c.aliasName ∈ [c.aliasName] := List.mem_singleton_self _
  have unchanged : ∃ gone made,
      before.Revised before ctx.component [c.aliasName] (b.Outdated ctx) gone made :=
    ⟨[], [], .refl _ _ _ _⟩
  -- what starting a container adds to what has been done before it
  have hstart : ∀ {desired middle gone calls verdict}, b.desired ctx c = .ok desired →
      before.Revised middle ctx.component [c.aliasName] (b.Outdated ctx) gone [] →
      Starting engine c desired middle calls verdict after →
      ∃ gone made, before.Revised after ctx.component [c.aliasName] (b.Outdated ctx) gone made := by
    intro desired middle gone calls verdict hdesired h starting
    rcases starting.effect honest with rfl | ⟨r, hlabels, -, rfl⟩
    · exact ⟨gone, [], h⟩
    · exact ⟨gone, [r], h.add hself (hlabels ▸ (selects_desired hdesired).2 ⟨rfl, rfl⟩)⟩
  cases realizing with
  | undesired | listFails | conflict => exact unchanged
  | missing hdesired _ starting => exact hstart hdesired (.refl _ _ _ _) starting
  | @found desired hdesired old only calls verdict after judging =>
    have hheld : old ∈ before.containers :=
      (Holdings.mem_ofAlias.1 (only ▸ List.mem_singleton_self old)).1
    have hremove : ∀ {r : Running}, r ∈ before.containers → r.live.id = old.live.id →
        desired.agrees r.definition = false → before.Revised (before.removeContainer old.live.id)
          ctx.component [c.aliasName] (b.Outdated ctx) [old] [] := by
      intro r hr hid differs
      obtain rfl := ids.eq_of_id hr hheld hid
      exact .remove ids hself only ⟨c, hc, rfl, desired, hdesired, differs⟩
    cases judging with
    | inspectFails | kept => exact unchanged
    | removeFails held hid differs _ met =>
      rcases honest.effect met with rfl | ⟨_, rfl⟩
      · exact unchanged
      · exact ⟨[old], [], hremove held hid differs⟩
    | removed held hid differs starting => exact hstart hdesired (hremove held hid differs) starting

/-- **Containers in order, however it ends.** -/
theorem realizeEach_revised (honest : engine.Honest) (keepsIds : engine.KeepsIds)
    (ids : before.DistinctIds) {components : List Component} (declared : components ⊆ b.components)
    (nodup : (components.map (·.aliasName)).Nodup) {trace : List Happening}
    {verdict : Except PushError (List ContainerRecord)}
    (run : (b.realizeEach ctx components).Runs engine before trace verdict after) :
    ∃ gone made, before.Revised after ctx.component (components.map (·.aliasName)) (b.Outdated ctx)
      gone made := by
  induction components generalizing before trace verdict with
  | nil =>
    obtain ⟨-, -, rfl⟩ := run
    exact ⟨[], [], .refl _ _ _ _⟩
  | cons c rest ih =>
    rw [List.map_cons, List.nodup_cons] at nodup
    rw [List.cons_subset] at declared
    have hdisjoint : ∀ a ∈ [c.aliasName], a ∉ rest.map (·.aliasName) := by
      simpa using nodup.1
    rcases Script.runs_bind_iff.1 run with ⟨error, -, hfirst⟩ | ⟨record, m₁, t₁, t₂, hfirst, hrest, -⟩
    · obtain ⟨gone, made, h⟩ := (realizeOne_realizing honest hfirst).revised honest ids declared.1
      refine ⟨gone, made, ?_⟩
      simpa using h.trans (.refl _ _ (rest.map (·.aliasName)) _) hdisjoint
    obtain ⟨gone, made, h⟩ := (realizeOne_realizing honest hfirst).revised honest ids declared.1
    obtain ⟨t₃, -, hothers⟩ := Script.runs_note_bind.1 hrest
    obtain ⟨inner, hothers, -⟩ := Script.runs_bind_done.1 hothers
    obtain ⟨gone', made', h'⟩ := ih (hfirst.distinctIds keepsIds ids) declared.2 nodup.2 hothers
    exact ⟨gone ++ gone', made ++ made', h.trans h' hdisjoint⟩

/-- **All containers, however it ends.** -/
theorem realize_revised (honest : engine.Honest) (keepsIds : engine.KeepsIds)
    (ids : before.DistinctIds) {trace : List Happening} {verdict : Except PushError ContainerReport}
    (run : (b.realize ctx).Runs engine before trace verdict after) :
    ∃ gone made, before.Revised after ctx.component (b.components.map (·.aliasName)) (b.Outdated ctx)
      gone made := by
  rcases Script.runs_bind_iff.1 run with ⟨error, -, hcheck⟩ | ⟨⟨⟩, m₁, t₁, t₂, hcheck, hrest, -⟩
  · obtain ⟨-, -, rfl⟩ := Script.runs_ofExcept.1 hcheck
    exact ⟨[], [], .refl _ _ _ _⟩
  obtain ⟨-, haccepted, rfl⟩ := Script.runs_ofExcept.1 hcheck
  obtain ⟨-, -, nodup⟩ := checkComponents_ok_iff.1 haccepted.symm
  obtain ⟨inner, heach, -⟩ := Script.runs_bind_done.1 hrest
  exact realizeEach_revised honest keepsIds ids (List.Subset.refl _) nodup heach

end Blueprint

end DevfilePush
