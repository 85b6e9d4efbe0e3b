import DevfilePush.Proofs.Engine.Renaming
import Mathlib.Data.List.Nodup

/-!
# Ids and names that are drawn once

The ids and names that fall to the calls of several pushes are drawn once if no two calls draw the same
and none draws what there is at the start. What is left to be drawn stays so while calls are made. Whatever
is drawn once can be exchanged for anything else that is, by a renaming that leaves alone what there is at
the start.

## Main definitions

* `DrawnOnce`: what falls to the calls is drawn once.
* `Holdings.Unused`: ids and names that there are not at the start are drawn once.

## Main statements

* `DrawnOnce.after_call`: what is left is drawn once.
* `Holdings.Unused.exists_renaming`: other lots for the same calls are a renaming of the lots.
-/

namespace DevfilePush

/-- Of what pushes draw for their calls, nothing is drawn twice, and nothing is taken already. -/
structure DrawnOnce (draw : Lot → String) (lots : Nat → List Lot) (taken : List String) : Prop where
  once : ∀ n, ((lots n).map draw).Nodup
  apart : ∀ m n, m ≠ n → List.Disjoint ((lots m).map draw) ((lots n).map draw)
  new : ∀ n, List.Disjoint taken ((lots n).map draw)

/-- The names of volumes, those that are mounted included. -/
def Holdings.names (h : Holdings) : List String :=
  h.volumes.map (·.name) ++ h.containers.flatMap fun c => c.definition.host.mounts.map (·.source)

/-- Ids are distinct at the start, and ids and names that there are not are drawn, each of them once. -/
structure Holdings.Unused (start : Holdings) (lots : Nat → List Lot) : Prop where
  distinct : start.DistinctIds
  ids : DrawnOnce (·.id) lots start.ids
  names : DrawnOnce (·.volume) lots start.names

namespace DrawnOnce

variable {draw : Lot → String} {lots lots' : Nat → List Lot} {taken : List String}

/-- What several pushes draw is all different. -/
theorem nodup (once : DrawnOnce draw lots taken) {numbers : List Nat} (distinct : numbers.Nodup) :
    (numbers.flatMap fun n => (lots n).map draw).Nodup :=
  List.nodup_flatMap.2 ⟨fun n _ => once.once n,
    distinct.imp fun {m n} hne => once.apart m n hne⟩

/-- What several pushes draw is not taken already. -/
theorem disjoint (once : DrawnOnce draw lots taken) (numbers : List Nat) :
    List.Disjoint taken (numbers.flatMap fun n => (lots n).map draw) := by
  intro a ha hdrawn
  obtain ⟨n, -, hn⟩ := List.mem_flatMap.1 hdrawn
  exact once.new n ha hn

/-- After a call of one of the pushes, what is left is drawn once, and what the call drew may be taken. -/
theorem after_call (once : DrawnOnce draw lots taken) {n : Nat} {lot : Lot} {rest : List Lot}
    (falls : lots n = lot :: rest) {taken' : List String} (htaken : taken' ⊆ taken ++ [draw lot]) :
    DrawnOnce draw (fun m => if m = n then rest else lots m) taken' := by
  have hsub : ∀ m, ((if m = n then rest else lots m).map draw).Sublist ((lots m).map draw) := by
    intro m
    split
    · subst m
      rw [falls]
      exact List.sublist_cons_self _ _
    · exact .refl _
  have hnew : ∀ m, draw lot ∉ (if m = n then rest else lots m).map draw := by
    intro m
    have honce := once.once n
    rw [falls, List.map_cons, List.nodup_cons] at honce
    split
    · exact honce.1
    · rename_i hne
      exact fun hm => once.apart m n hne hm (falls ▸ List.mem_cons_self)
  refine ⟨fun m => (once.once m).sublist (hsub m), fun m k hne => ?_, fun m a ha hdrawn => ?_⟩
  · exact fun a hm hk => once.apart m k hne ((hsub m).mem hm) ((hsub k).mem hk)
  · rcases List.mem_append.1 (htaken ha) with ha | ha
    · exact once.new m ha ((hsub m).mem hdrawn)
    · exact hnew m (List.mem_singleton.1 ha ▸ hdrawn)

/-- A list that answers to another one member by member is what becomes of it. -/
theorem eq_map_of_zip {α β : Type} {f : α → β} {xs : List α} {ys : List β}
    (length : xs.length = ys.length) (answers : ∀ z ∈ xs.zip ys, f z.1 = z.2) : ys = xs.map f :=
  calc ys = (xs.zip ys).map (·.2) := (List.map_snd_zip (Nat.le_of_eq length.symm)).symm
    _ = (xs.zip ys).map (f ∘ (·.1)) := List.map_congr_left fun z hz => (answers z hz).symm
    _ = ((xs.zip ys).map (·.1)).map f := List.map_map.symm
    _ = xs.map f := by rw [List.map_fst_zip (Nat.le_of_eq length)]

/-- Two ways of drawing for the same calls are exchanged by a permutation. -/
theorem exists_perm (once : DrawnOnce draw lots taken) (once' : DrawnOnce draw lots' taken)
    (lengths : ∀ n, (lots n).length = (lots' n).length) (count : Nat) :
    ∃ σ : Equiv.Perm String, (∀ n < count, (lots' n).map draw = ((lots n).map draw).map σ) ∧
      ∀ a ∈ taken, σ a = a := by
  -- what is drawn in the one way with what is drawn in the other, call by call
  let pairs := (List.range count).flatMap fun n => ((lots n).map draw).zip ((lots' n).map draw)
  have hold : pairs.map (·.1) = (List.range count).flatMap fun n => (lots n).map draw := by
    rw [List.map_flatMap]
    exact List.flatMap_congr fun n _ => List.map_fst_zip (by simp [lengths n])
  have hnew : pairs.map (·.2) = (List.range count).flatMap fun n => (lots' n).map draw := by
    rw [List.map_flatMap]
    exact List.flatMap_congr fun n _ => List.map_snd_zip (by simp [lengths n])
  obtain ⟨σ, hpairs, hothers⟩ := DevfilePush.exists_perm pairs (hold ▸ once.nodup List.nodup_range)
    (hnew ▸ once'.nodup List.nodup_range)
  refine ⟨σ, fun n hn => ?_, fun a ha => hothers a ?_ ?_⟩
  · have hzip : ∀ z ∈ ((lots n).map draw).zip ((lots' n).map draw), σ z.1 = z.2 := fun z hz =>
      hpairs z (List.mem_flatMap.2 ⟨n, List.mem_range.2 hn, hz⟩)
    exact eq_map_of_zip (by simp [lengths n]) hzip
  · exact hold ▸ fun h => once.disjoint _ ha h
  · exact hnew ▸ fun h => once'.disjoint _ ha h

end DrawnOnce

namespace Holdings.Unused

variable {start : Holdings} {lots lots' : Nat → List Lot}

/-- Lots that agree in what becomes of the calls and in all that is drawn are the same. -/
theorem lots_ext {xs ys : List Lot} (fates : xs.map (·.fate) = ys.map (·.fate))
    (ids : xs.map (·.id) = ys.map (·.id)) (names : xs.map (·.volume) = ys.map (·.volume)) : xs = ys := by
  induction xs generalizing ys with
  | nil => simpa using ids
  | cons x xs ih =>
    cases ys with
    | nil => simp at ids
    | cons y ys =>
      rw [List.map_cons, List.map_cons, List.cons.injEq] at fates ids names
      obtain ⟨fate, id, volume⟩ := x
      obtain ⟨fate', id', volume'⟩ := y
      obtain ⟨rfl, hfates⟩ := fates
      obtain ⟨rfl, hids⟩ := ids
      obtain ⟨rfl, hnames⟩ := names
      rw [ih hfates hids hnames]

theorem map_eq_self {α : Type} {f : α → α} {xs : List α} (same : ∀ x ∈ xs, f x = x) : xs.map f = xs :=
  (List.map_congr_left same).trans (List.map_id' xs)

/-- What is neither an id nor a name that there is at the start can be renamed without changing it. -/
theorem fixed {π : Renaming} (ids : ∀ id ∈ start.ids, π.ids id = id)
    (names : ∀ name ∈ start.names, π.names name = name) : π.holdings start = start := by
  have hvolumes : ∀ v ∈ start.volumes, π.volume v = v := by
    intro v hv
    have hname : π.names v.name = v.name :=
      names _ (List.mem_append_left _ (List.mem_map_of_mem hv))
    rw [Renaming.volume, hname]
  have hcontainers : ∀ c ∈ start.containers, π.running c = c := by
    intro c hc
    have hid : π.ids c.live.id = c.live.id := ids _ (List.mem_map_of_mem hc)
    have hmounts : c.definition.host.mounts.map π.mount = c.definition.host.mounts := by
      refine map_eq_self fun m hm => ?_
      have hsource : π.names m.source = m.source := names _ (List.mem_append_right _
        (List.mem_flatMap.2 ⟨c, hc, List.mem_map_of_mem hm⟩))
      rw [Renaming.mount, hsource]
    rw [Renaming.running, Renaming.listed, Renaming.definition, hid, hmounts]
  exact congrArg₂ Holdings.mk (map_eq_self hvolumes) (map_eq_self hcontainers)

/-- Other lots to which the same becomes of the calls are a renaming of the lots, and there is nothing
renamed at the start. -/
theorem exists_renaming (unused : start.Unused lots) (unused' : start.Unused lots')
    (fates : ∀ n, (lots n).map (·.fate) = (lots' n).map (·.fate)) (count : Nat) :
    ∃ π : Renaming, π.holdings start = start ∧ ∀ n < count, lots' n = (lots n).map π.lot := by
  have lengths : ∀ n, (lots n).length = (lots' n).length := fun n => by
    simpa using congrArg List.length (fates n)
  obtain ⟨ids, hids, hfixedIds⟩ := unused.ids.exists_perm unused'.ids lengths count
  obtain ⟨names, hnames, hfixedNames⟩ := unused.names.exists_perm unused'.names lengths count
  refine ⟨⟨ids, names⟩, fixed hfixedIds hfixedNames, fun n hn => lots_ext ?_ ?_ ?_⟩
  · rw [← fates n, List.map_map]
    rfl
  · rw [hids n hn, List.map_map, List.map_map]
    rfl
  · rw [hnames n hn, List.map_map, List.map_map]
    rfl

end Holdings.Unused

end DevfilePush
