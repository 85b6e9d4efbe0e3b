import DevfilePush.Proofs.Push.Renamed
import DevfilePush.Simulation.Schedule
import Mathlib.Data.List.Flatten
import Mathlib.Data.List.Induction

/-!
# Pushes in turn, one component at a time

Pushes that are carried out one after another can be told apart by component: those of one component go as
if the component's part were all that the engine holds and they were the only ones. The other way round,
what happens in the parts can be put together again in any order that keeps that within each component.

## Main definitions

* `componentOf?`: the component of a push that is given by its number.
* `drawnIds`: the ids that fall to the calls of some pushes.

## Main statements

* `InTurn.part`: what happens in a component's part.
* `InTurn.renamed`: what happens where everything is renamed.
* `InTurn.exists_of_parts`: what happens in the parts can happen in turn.
-/

namespace DevfilePush

/-- The component of a push that is given by its number. -/
def componentOf? (pushes : List (Push × UrlListing)) (n : Nat) : Option String :=
  pushes[n]?.map (·.1.component)

section Component

variable {pushes : List (Push × UrlListing)} {n : Nat} {p : Push} {listing : UrlListing}

theorem componentOf?_eq (found : pushes[n]? = some (p, listing)) :
    componentOf? pushes n = some p.component := by
  rw [componentOf?, found]
  rfl

/-- A push more counts for its own component only. -/
theorem filter_componentOf? (found : pushes[n]? = some (p, listing)) (order : List Nat)
    (component : String) :
    (order ++ [n]).filter (fun n => componentOf? pushes n = some component) =
      order.filter (fun n => componentOf? pushes n = some component) ++
        if p.component = component then [n] else [] := by
  simp only [List.filter_append, List.filter_singleton, componentOf?_eq found, Option.some.injEq,
    Bool.cond_decide]

end Component

/-- The ids that fall to the calls of pushes that are given by their numbers. -/
def drawnIds (lots : Nat → List Lot) (numbers : List Nat) : List String :=
  numbers.flatMap fun n => (lots n).map (·.id)

@[simp] theorem drawnIds_append (lots : Nat → List Lot) (ns ms : List Nat) :
    drawnIds lots (ns ++ ms) = drawnIds lots ns ++ drawnIds lots ms := List.flatMap_append

@[simp] theorem drawnIds_singleton (lots : Nat → List Lot) (n : Nat) :
    drawnIds lots [n] = (lots n).map (·.id) := List.flatMap_singleton ..

theorem drawnIds_sublist (lots : Nat → List Lot) {ns ms : List Nat} (h : ns.Sublist ms) :
    (drawnIds lots ns).Sublist (drawnIds lots ms) := h.flatMap _

namespace InTurn

variable {commandLine : ContainerConfig → String} {π : Renaming} {config : ValidConfig}
  {pushes : List (Push × UrlListing)} {lots lots' : Nat → List Lot} {start after : Holdings}
  {ran past : List (Nat × Except PushError PushReport)} {n : Nat} {p : Push} {listing : UrlListing}
  {verdict : Except PushError PushReport} {component : String} {order : List Nat}

/-- The only ids that there can be in the end are those at the start and those that were drawn. -/
theorem ids (turns : InTurn commandLine config pushes lots start ran after) :
    after.ids.Sublist (start.ids ++ drawnIds lots (ran.map (·.1))) := by
  induction turns with
  | start => exact List.sublist_append_left _ _
  | push earlier found run ih =>
    rw [List.map_append, drawnIds_append, ← List.append_assoc]
    exact run.ids.trans ((drawnIds_singleton lots _).symm ▸ ih.append_right _)

/-- The ids that the next push will draw are new. -/
theorem fresh_next (turns : InTurn commandLine config pushes lots start ran after)
    (fresh : (start.ids ++ drawnIds lots (ran.map (·.1) ++ [n])).Nodup) :
    (after.ids ++ (lots n).map (·.id)).Nodup := by
  rw [drawnIds_append, drawnIds_singleton, ← List.append_assoc] at fresh
  exact fresh.sublist (turns.ids.append_right _)

/-- Where several pushes draw new ids, so do all but the last. -/
theorem fresh_past (fresh : (start.ids ++ drawnIds lots (order ++ [n])).Nodup) :
    (start.ids ++ drawnIds lots order).Nodup :=
  fresh.sublist ((drawnIds_sublist lots (List.sublist_append_left _ _)).append_left _)

/-- Pushes in turn of which the last is known. -/
theorem exists_last (turns : InTurn commandLine config pushes lots start ran after)
    (numbers : ran.map (·.1) = order ++ [n]) (found : pushes[n]? = some (p, listing)) :
    ∃ past middle verdict, InTurn commandLine config pushes lots start past middle ∧
      past.map (·.1) = order ∧ ran = past ++ [(n, verdict)] ∧
      (p.script config listing).Undergoes commandLine (lots n) middle verdict after := by
  cases turns with
  | start => simp at numbers
  | @push past m p' listing' verdict middle _ earlier found' run =>
    rw [List.map_append] at numbers
    obtain ⟨hpast, hlast⟩ := List.append_inj' numbers rfl
    obtain rfl : m = n := by simpa using hlast
    obtain ⟨rfl, rfl⟩ := Prod.mk.inj (Option.some.inj (found.symm.trans found'))
    exact ⟨past, middle, verdict, earlier, hpast, rfl, run⟩

/-! ## One component -/

/-- What pushes do one after another in a component's part is what the component's pushes would do if the
part were all. -/
theorem part (turns : InTurn commandLine config pushes lots start ran after)
    (fresh : (start.ids ++ drawnIds lots (ran.map (·.1))).Nodup) (component : String) :
    InTurn commandLine config pushes lots (start.part (some component))
      (ran.filter fun e => componentOf? pushes e.1 = some component) (after.part (some component)) := by
  induction turns with
  | start => exact .start
  | @push past n p listing verdict middle after earlier found run ih =>
    rw [List.map_append] at fresh
    have hpast := ih (fresh_past fresh)
    obtain ⟨hown, hothers⟩ := Push.undergoes_part run (earlier.fresh_next fresh)
    simp only [List.filter_append, List.filter_singleton, componentOf?_eq found, Option.some.injEq]
    by_cases hsame : p.component = component
    · subst hsame
      simpa using hpast.push found hown
    · rw [hothers _ fun h => hsame (Option.some.inj h).symm]
      simpa [hsame] using hpast

/-- What belongs to no component stays as it was. -/
theorem part_none (turns : InTurn commandLine config pushes lots start ran after)
    (fresh : (start.ids ++ drawnIds lots (ran.map (·.1))).Nodup) :
    after.part none = start.part none := by
  induction turns with
  | start => rfl
  | push earlier found run ih =>
    rw [List.map_append] at fresh
    obtain ⟨-, hothers⟩ := Push.undergoes_part run (earlier.fresh_next fresh)
    rw [hothers none nofun, ih (fresh_past fresh)]

/-! ## Other names -/

/-- Where everything is renamed, the same pushes in the same order leave and report the renamed. -/
theorem renamed (turns : InTurn commandLine config pushes lots start ran after)
    (fresh : (start.ids ++ drawnIds lots (ran.map (·.1))).Nodup)
    (drawn : ∀ n ∈ ran.map (·.1), lots' n = (lots n).map π.lot)
    {ran' : List (Nat × Except PushError PushReport)} {after' : Holdings}
    (turns' : InTurn commandLine config pushes lots' (π.holdings start) ran' after')
    (numbers : ran'.map (·.1) = ran.map (·.1)) :
    after' = π.holdings after ∧ ran' = ran.map fun e => (e.1, e.2.map π.report) := by
  induction turns generalizing ran' after' with
  | start =>
    cases turns' with
    | start => exact ⟨rfl, rfl⟩
    | push => simp at numbers
  | @push past n p listing verdict middle after earlier found run ih =>
    rw [List.map_append] at fresh numbers
    rw [List.map_append, List.forall_mem_append] at drawn
    obtain ⟨past', middle', verdict', earlier', hpast, rfl, run'⟩ := turns'.exists_last numbers found
    obtain ⟨rfl, rfl⟩ := ih (fresh_past fresh) drawn.1 earlier' hpast
    rw [drawn.2 n (List.mem_singleton_self n)] at run'
    have freshRun := earlier.fresh_next fresh
    have ids := Script.distinctIds_of_nodup freshRun
    obtain ⟨rfl, hverdict⟩ := (Push.script_twins ids).sound freshRun run run'
    refine ⟨rfl, ?_⟩
    rw [List.map_append]
    rcases hverdict with ⟨report, report', rfl, rfl, rfl⟩ | ⟨error, rfl, rfl⟩ <;> rfl

/-- What pushes in turn leave in a component's part, and what the component's pushes among them report, is
the renamed of what happens in the part. -/
theorem part_renamed
    (inPart : InTurn commandLine config pushes lots (start.part (some component)) ran after)
    {ran' : List (Nat × Except PushError PushReport)} {after' : Holdings}
    (turns : InTurn commandLine config pushes lots' start ran' after')
    (numbers : ran.map (·.1) =
      (ran'.map (·.1)).filter fun n => componentOf? pushes n = some component)
    (fixed : π.holdings start = start) (drawn : ∀ n ∈ ran'.map (·.1), lots' n = (lots n).map π.lot)
    (fresh : (start.ids ++ drawnIds lots (ran'.map (·.1))).Nodup)
    (fresh' : (start.ids ++ drawnIds lots' (ran'.map (·.1))).Nodup) :
    after'.part (some component) = π.holdings after ∧
      (ran'.filter fun e => componentOf? pushes e.1 = some component) =
        ran.map fun e => (e.1, e.2.map π.report) := by
  have hstart : start.part (some component) = π.holdings (start.part (some component)) := by
    rw [← Renaming.part_holdings, fixed]
  have hown := turns.part fresh' component
  rw [hstart] at hown
  have hsub : (ran.map (·.1)).Sublist (ran'.map (·.1)) := numbers ▸ List.filter_sublist
  refine inPart.renamed ?_ (fun n hn => drawn n (hsub.mem hn)) hown ?_
  · exact fresh.sublist ((start.ids_part_sublist _).append (drawnIds_sublist lots hsub))
  · rw [numbers, List.filter_map]
    rfl

/-! ## The components put together -/

/-- What can happen in turn in the part of each component can happen in turn in the whole, with everything
renamed, and in any order that keeps that of each component. -/
theorem exists_of_parts (known : ∀ n ∈ order, ∃ e, pushes[n]? = some e)
    (parts : ∀ component, ∃ ran after, InTurn commandLine config pushes lots
      (start.part (some component)) ran after ∧
      ran.map (·.1) = order.filter fun n => componentOf? pushes n = some component)
    (fixed : π.holdings start = start) (drawn : ∀ n ∈ order, lots' n = (lots n).map π.lot)
    (fresh : (start.ids ++ drawnIds lots order).Nodup)
    (fresh' : (start.ids ++ drawnIds lots' order).Nodup) :
    ∃ ran after, InTurn commandLine config pushes lots' start ran after ∧ ran.map (·.1) = order := by
  -- The last push goes as in its component's part, where the others are put together before it.
  induction order using List.reverseRecOn with
  | nil => exact ⟨[], start, .start, rfl⟩
  | append_singleton past n ih =>
    simp only [List.forall_mem_append, List.forall_mem_singleton] at known drawn
    obtain ⟨hknown, ⟨p, listing⟩, found⟩ := known
    obtain ⟨ran, after, turns, numbers⟩ := parts p.component
    rw [filter_componentOf? found, if_pos rfl] at numbers
    obtain ⟨ran, middle, verdict, earlier, hran, -, run⟩ := turns.exists_last numbers found
    have hparts : ∀ component, ∃ ran after, InTurn commandLine config pushes lots
        (start.part (some component)) ran after ∧
        ran.map (·.1) = past.filter fun n => componentOf? pushes n = some component := by
      intro component
      by_cases hsame : p.component = component
      · exact hsame ▸ ⟨ran, middle, earlier, hran⟩
      · obtain ⟨other, left, hturns, hother⟩ := parts component
        rw [filter_componentOf? found, if_neg hsame, List.append_nil] at hother
        exact ⟨other, left, hturns, hother⟩
    obtain ⟨ran', middle', turns', rfl⟩ :=
      ih hknown hparts drawn.1 (fresh_past fresh) (fresh_past fresh')
    have hpart : middle'.part (some p.component) = π.holdings middle :=
      (earlier.part_renamed turns' hran fixed drawn.1 (fresh_past fresh) (fresh_past fresh')).1
    have freshRun : (middle.ids ++ (lots n).map (·.id)).Nodup := by
      refine earlier.fresh_next (fresh.sublist ?_)
      rw [hran]
      exact (start.ids_part_sublist _).append
        (drawnIds_sublist lots (List.filter_sublist.append_right _))
    have freshRun' := turns'.fresh_next fresh'
    rw [drawn.2] at freshRun'
    have ids := Script.distinctIds_of_nodup freshRun
    obtain ⟨verdict', after', run'⟩ := (Push.script_twins ids).exists_run freshRun run hpart freshRun'
    rw [← drawn.2] at run'
    exact ⟨ran' ++ [(n, verdict')], after', .push turns' found run', List.map_append⟩

end InTurn

end DevfilePush
