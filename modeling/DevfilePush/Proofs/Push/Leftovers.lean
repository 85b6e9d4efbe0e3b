import DevfilePush.Proofs.Pool.Session
import DevfilePush.Proofs.Push.Frame
import DevfilePush.Proofs.Push.Initialisation

/-!
# What earlier pushes leave over

A push looks after the aliases that it declares and after no others. When a component is pushed again
with fewer aliases, or with aliases that are called otherwise, the containers of those that are declared
no longer are left over: they stay as they are, one for each alias, until a push declares the alias
again. Besides these, a push that succeeds leaves exactly the containers that it declares.

## Main definitions

* `Push.aliases`, `Round.leftovers`: the aliases that a push declares, and those left over to it.
* `Holdings.RunsExactly`: a component has one container for each of some aliases, and no others.
* `Holdings.Accounted`: every container of a component belongs to an alias, and none to an alias twice.

## Main statements

* `Push.accounted`: what every push keeps, however it ends.
* `History.accounted`: what holds after any pushes of a component.
* `leaves_over`: what there is after a push that succeeds.
-/

namespace DevfilePush

/-- The aliases that a push declares. -/
def Push.aliases (p : Push) : List String := p.components.map (·.aliasName)

/-- The aliases that earlier pushes leave over: those that a push does not declare although an earlier one
did, and that had a container before it. -/
def Round.leftovers (round : Round) (earlier : List Round) : List String :=
  (earlier.flatMap (·.push.aliases)).filter fun a =>
    a ∉ round.push.aliases ∧ round.before.ofAlias round.push.component a ≠ []

/-- A component has one container for each of these aliases, and no other container. -/
structure Holdings.RunsExactly (h : Holdings) (component : String) (aliases : List String) : Prop where
  each : ∀ a ∈ aliases, ∃ r, h.ofAlias component a = [r]
  only : ∀ r ∈ h.containersWith (Labels.ofComponent component), ∃ a ∈ aliases, r ∈ h.ofAlias component a

/-- Every container of a component carries one of these aliases, and no alias has several containers. -/
structure Holdings.Accounted (h : Holdings) (component : String) (aliases : List String) : Prop where
  known : ∀ r ∈ h.containersWith (Labels.ofComponent component), ∃ a ∈ aliases, r ∈ h.ofAlias component a
  single : ∀ a, (h.ofAlias component a).length ≤ 1

namespace Holdings

variable {h : Holdings} {component : String} {aliases : List String}

theorem mem_ofComponent {r : Running} :
    r ∈ h.containersWith (Labels.ofComponent component) ↔ r ∈ h.containers ∧
      r.live.labels.get? Conventions.componentLabel = some component := by
  rw [containersWith, List.mem_filter, Labels.ofComponent_selects_iff]

/-- A component without containers is accounted for. -/
theorem accounted_of_eq_nil (none : h.containersWith (Labels.ofComponent component) = []) :
    h.Accounted component [] where
  known := by simp [none]
  single a := by
    have hnil : h.ofAlias component a = [] := by
      rw [List.eq_nil_iff_forall_not_mem]
      intro r hr
      obtain ⟨hheld, hlabel, -⟩ := mem_ofAlias.1 hr
      have hmem := mem_ofComponent.2 ⟨hheld, hlabel⟩
      rw [none] at hmem
      cases hmem
    simp [hnil]

/-- An alias with containers, of a component that is accounted for, has just one. -/
theorem Accounted.eq_singleton (accounted : h.Accounted component aliases) {a : String}
    (some : h.ofAlias component a ≠ []) : ∃ r, h.ofAlias component a = [r] := by
  have hpos := List.length_pos_iff.2 some
  have hone := accounted.single a
  exact List.length_eq_one_iff.1 (by omega)

/-- A component that is accounted for runs exactly those of its aliases that have containers. -/
theorem Accounted.runsExactly {known : List String} (accounted : h.Accounted component known)
    (each : ∀ a ∈ aliases, h.ofAlias component a ≠ [])
    (others : ∀ a ∈ known, h.ofAlias component a ≠ [] → a ∈ aliases) :
    h.RunsExactly component aliases where
  each a ha := accounted.eq_singleton (each a ha)
  only r hr := by
    obtain ⟨a, ha, hmem⟩ := accounted.known r hr
    exact ⟨a, others a ha (List.ne_nil_of_mem hmem), hmem⟩

end Holdings

namespace Round

variable {round : Round} {earlier : List Round} {a : String}

theorem mem_leftovers :
    a ∈ round.leftovers earlier ↔ (∃ older ∈ earlier, a ∈ older.push.aliases) ∧
      a ∉ round.push.aliases ∧ round.before.ofAlias round.push.component a ≠ [] := by
  rw [leftovers, List.mem_filter, List.mem_flatMap, decide_eq_true_eq]

/-- Nothing is left over if all that was declared is declared again. -/
theorem leftovers_eq_nil (again : ∀ older ∈ earlier, older.push.aliases ⊆ round.push.aliases) :
    round.leftovers earlier = [] := by
  rw [List.eq_nil_iff_forall_not_mem]
  intro a ha
  obtain ⟨⟨older, holder, hdeclared⟩, hnot, -⟩ := mem_leftovers.1 ha
  exact hnot (again older holder hdeclared)

end Round

/-! ## One push -/

namespace Push

variable {p : Push} {config : ValidConfig} {listing : UrlListing} {engine : Conduct}
  {before after : Holdings} {trace : List Happening} {verdict : Except PushError PushReport}
  {aliases : List String}

/-- No alias is given a second container, whatever becomes of a push. -/
theorem ofAlias_length_le (honest : engine.Honest)
    (run : (p.script config listing).Runs engine before trace verdict after)
    (single : ∀ a, (before.ofAlias p.component a).length ≤ 1) (a : String) :
    (after.ofAlias p.component a).length ≤ 1 := by
  have hcareful : (p.script config listing).Careful engine p.component :=
    (Script.careful_ofExcept _).bind fun _ => session_careful honest p config listing
  refine (hcareful before).invariant (P := fun h => (h.ofAlias p.component a).length ≤ 1) run ?_
    (single a)
  intro h k hkeeps hone
  have hmax := hkeeps.containers a
  omega

/-- **Accounting.** Whatever becomes of a push, the containers of its component still carry known aliases
or declared ones, and no alias has several. -/
theorem accounted (honest : engine.Honest) (keepsIds : engine.KeepsIds) (ids : before.DistinctIds)
    (run : (p.script config listing).Runs engine before trace verdict after)
    (h : before.Accounted p.component aliases) : after.Accounted p.component (p.aliases ++ aliases) where
  known := by
    obtain ⟨roles, gone, made, within⟩ := (script_proceeding run).framed honest keepsIds ids
    intro r hr
    obtain ⟨hheld, hlabel⟩ := Holdings.mem_ofComponent.1 hr
    rcases within.held_or_declared hheld with hold | ⟨c, hc, hnew⟩
    · obtain ⟨a, ha, hold⟩ := h.known r (Holdings.mem_ofComponent.2 ⟨hold, hlabel⟩)
      exact ⟨a, List.mem_append_right _ ha,
        Holdings.mem_ofAlias.2 ⟨hheld, (Holdings.mem_ofAlias.1 hold).2⟩⟩
    · exact ⟨c.aliasName, List.mem_append_left _ (List.mem_map_of_mem hc), hnew⟩
  single := ofAlias_length_le honest run h.single

/-- Whatever becomes of a push, it leaves alone what it does not declare. -/
theorem ofAlias_undeclared (honest : engine.Honest) (keepsIds : engine.KeepsIds)
    (ids : before.DistinctIds) (run : (p.script config listing).Runs engine before trace verdict after)
    {a : String} (undeclared : a ∉ p.aliases) :
    after.ofAlias p.component a = before.ofAlias p.component a := by
  obtain ⟨roles, gone, made, within⟩ := (script_proceeding run).framed honest keepsIds ids
  exact within.ofAlias_of_undeclared undeclared p.component

/-- A push that succeeds leaves one container for each alias that it declares. -/
theorem ofAlias_declared (honest : engine.Honest) (keepsIds : engine.KeepsIds)
    (ids : before.DistinctIds) {report : PushReport}
    (run : (p.script config listing).Runs engine before trace (.ok report) after) {a : String}
    (declared : a ∈ p.aliases) : ∃ r, after.ofAlias p.component a = [r] := by
  obtain ⟨c, hc, rfl⟩ := List.mem_map.1 declared
  obtain ⟨-, containers, settled, t₁, t₂, hfirst, hsecond, -⟩ := runs_script_ok.1 run
  obtain ⟨urls, names, -, -, -, -, settles⟩ := reconciliation_ok honest keepsIds ids hfirst
  obtain ⟨record, -, desired, -, halias, tells⟩ := exists_of_forall₂ settles.containers c hc
  rw [execution_unchanged honest hsecond]
  obtain ⟨r, hr, -⟩ := tells.running
  exact ⟨r, halias ▸ hr⟩

end Push

/-! ## Pushes one after another -/

variable {engine : Conduct} {config : ValidConfig} {component : String} {start after : Holdings}

/-- After any pushes of a component that had no containers, whatever became of them, every container of
it carries an alias that one of them declared, and no alias has several. -/
theorem History.accounted {rounds : List Round} (honest : engine.Honest) (keepsIds : engine.KeepsIds)
    (ids : start.DistinctIds) (none : start.containersWith (Labels.ofComponent component) = [])
    (history : History engine config component start rounds after) :
    after.Accounted component (rounds.flatMap (·.push.aliases)) := by
  induction history with
  | start => exact Holdings.accounted_of_eq_nil none
  | push past same run ih =>
    subst same
    exact Push.accounted honest keepsIds (past.distinctIds keepsIds ids) run ih

/-- **Leftovers.** After a push that succeeds, at the end of any pushes of a component that had no
containers, its containers are exactly one for each alias that this push declares and one for each alias
that is left over to it, and what is left over stays as it was. So they are exactly those that are
declared, if every alias that was declared earlier is declared again. -/
theorem leaves_over {round : Round} {earlier : List Round} {report : PushReport}
    (honest : engine.Honest) (keepsIds : engine.KeepsIds) (ids : start.DistinctIds)
    (none : start.containersWith (Labels.ofComponent component) = [])
    (history : History engine config component start (round :: earlier) after)
    (succeeded : round.verdict = .ok report) :
    after.RunsExactly component (round.push.aliases ++ round.leftovers earlier) ∧
      (∀ a ∉ round.push.aliases, after.ofAlias component a = round.before.ofAlias component a) ∧
      ((∀ older ∈ earlier, older.push.aliases ⊆ round.push.aliases) →
        after.RunsExactly component round.push.aliases) := by
  have haccounted := history.accounted honest keepsIds ids none
  cases history with
  | push past same run =>
    subst same
    rw [succeeded] at run
    have hids := past.distinctIds keepsIds ids
    have hundeclared : ∀ a ∉ round.push.aliases, round.after.ofAlias round.push.component a =
        round.before.ofAlias round.push.component a :=
      fun a => Push.ofAlias_undeclared honest keepsIds hids run
    have hexactly : round.after.RunsExactly round.push.component
        (round.push.aliases ++ round.leftovers earlier) := by
      refine haccounted.runsExactly ?_ ?_
      · intro a ha
        rcases List.mem_append.1 ha with hdeclared | hleft
        · obtain ⟨r, hr⟩ := Push.ofAlias_declared honest keepsIds hids run hdeclared
          simp [hr]
        · obtain ⟨-, hnot, hheld⟩ := Round.mem_leftovers.1 hleft
          rw [hundeclared a hnot]
          exact hheld
      · intro a ha hheld
        by_cases hdeclared : a ∈ round.push.aliases
        · exact List.mem_append_left _ hdeclared
        · have hearlier := (List.mem_append.1 ha).resolve_left hdeclared
          rw [hundeclared a hdeclared] at hheld
          exact List.mem_append_right _ (Round.mem_leftovers.2
            ⟨List.mem_flatMap.1 hearlier, hdeclared, hheld⟩)
    refine ⟨hexactly, hundeclared, fun again => ?_⟩
    rw [Round.leftovers_eq_nil again, List.append_nil] at hexactly
    exact hexactly

/-! ## A push with fewer containers -/

open Push (sample sampleListing samplePair samplePairCourse)

/-- A push of two containers, and then a push of the first of them alone. -/
def sampleShrinking : List Round :=
  [.follow sample sampleListing samplePairCourse.engine [],
    .follow (samplePair "postgres:16") sampleListing .empty []]

/-- What the engine holds in the end. -/
def sampleShrunk : Holdings :=
  ((sample.script .standard sampleListing).follow samplePairCourse.engine []).engine.holdings

theorem history_sampleShrinking :
    History MemoryEngine.faulty .standard "shop" ⟨[], []⟩ sampleShrinking sampleShrunk := by
  have first : History MemoryEngine.faulty .standard (samplePair "postgres:16").component ⟨[], []⟩ _ _ :=
    .follow MemoryEngine.numbered_empty .start sampleListing []
  exact .follow (p := sample) (MemoryEngine.numbered_empty.follow _ _) first sampleListing []

/-- The container of the alias that the second push does not declare is left over. -/
theorem leaves_over_sample :
    sampleShrunk.RunsExactly "shop" ["web", "db"] ∧
      sampleShrunk.ofAlias "shop" "db" = samplePairCourse.engine.holdings.ofAlias "shop" "db" := by
  obtain ⟨hexactly, hundeclared, -⟩ := leaves_over (MemoryEngine.honest_conduct _)
    (MemoryEngine.keepsIds_conduct _) (by decide) (by rfl) history_sampleShrinking (by rfl)
  exact ⟨hexactly, hundeclared "db" (by decide)⟩

/-- It is then there although it is not declared. -/
theorem not_always_exact :
    ¬ ∀ {engine : Conduct} {config : ValidConfig} {component : String} {start after : Holdings}
      {round : Round} {earlier : List Round} {report : PushReport},
      engine.Honest → engine.KeepsIds → start.DistinctIds →
      start.containersWith (Labels.ofComponent component) = [] →
      History engine config component start (round :: earlier) after → round.verdict = .ok report →
      after.RunsExactly component round.push.aliases := by
  intro h
  have hexactly : sampleShrunk.RunsExactly "shop" ["web"] :=
    h (MemoryEngine.honest_conduct _) (MemoryEngine.keepsIds_conduct _) (by decide) (by rfl)
      history_sampleShrinking (by rfl)
  have hleft : ∃ r ∈ sampleShrunk.containersWith (Labels.ofComponent "shop"),
      r ∉ sampleShrunk.ofAlias "shop" "web" := by decide
  obtain ⟨r, hr, hnot⟩ := hleft
  obtain ⟨a, ha, hmem⟩ := hexactly.only r hr
  obtain rfl := List.mem_singleton.1 ha
  exact hnot hmem

end DevfilePush
