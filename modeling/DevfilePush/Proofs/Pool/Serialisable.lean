import DevfilePush.Proofs.Pool.Serial

/-!
# Pushes are serialisable

Pushes that are carried out at once end as they do in turn, in the order in which they got their locks, and
leave what they leave in turn, but for the ids and names that the engine gives. In turn they may be met by
other lots than at once, if the same becomes of their calls and only what is drawn for them differs. The
pushes of one component alone end and leave in its part the same, so that pushes of other components make
no difference to them.

## Main statements

* `Schedule.Serial.exists_in_turn`: the pushes of some components can be carried out in turn.
* `Schedule.Serial.ends_in_turn`, `Schedule.Serial.part_in_turn`: how they end and what they leave then.
* `Schedule.serialisable`: all pushes, and those of one component.
-/

namespace DevfilePush

/-- Ids that are drawn once are new for pushes of different numbers. -/
theorem Holdings.Unused.fresh {start : Holdings} {lots : Nat → List Lot} (unused : start.Unused lots)
    {numbers : List Nat} (once : numbers.Nodup) : (start.ids ++ drawnIds lots numbers).Nodup :=
  List.nodup_append'.2 ⟨unused.distinct, unused.ids.nodup once, unused.ids.disjoint numbers⟩

namespace Schedule

variable {commandLine : ContainerConfig → String} {config : ValidConfig}
  {pushes : List (Push × UrlListing)} {lots lots' : Nat → List Lot} {start : Holdings}
  {last : Schedule} {π : Renaming}

/-- The pushes that have got their lock and whose component is wanted, in this order. -/
def wantedOrder (pushes : List (Push × UrlListing)) (s : Schedule) (wanted : Option String → Bool) :
    List Nat :=
  s.order.filter fun n => wanted (componentOf? pushes n)

/-- Of the pushes of wanted components, those of a wanted one are all of its pushes, and there are none of
another. -/
theorem filter_wantedOrder (s : Schedule) (wanted : Option String → Bool) (component : String) :
    (s.wantedOrder pushes wanted).filter (fun n => componentOf? pushes n = some component) =
      if wanted (some component) then s.orderOf pushes component else [] := by
  rw [wantedOrder, List.filter_filter]
  split
  · refine List.filter_congr fun n _ => ?_
    by_cases hn : componentOf? pushes n = some component <;> simp_all
  · refine List.filter_eq_nil_iff.2 fun n _ => ?_
    by_cases hn : componentOf? pushes n = some component <;> simp_all

namespace Serial

variable {wanted : Option String → Bool} {ran : List (Nat × Except PushError PushReport)}
  {after : Holdings}

theorem known_of_wanted (serial : last.Serial commandLine config pushes lots start) :
    ∀ n ∈ last.wantedOrder pushes wanted, ∃ e, pushes[n]? = some e := by
  intro n hn
  obtain ⟨task, found⟩ := serial.known n (List.mem_of_mem_filter hn)
  exact ⟨_, serial.pushes_found found⟩

/-- The pushes of wanted components draw what is new when they are carried out in turn. -/
theorem fresh_of_wanted (serial : last.Serial commandLine config pushes lots start)
    (unused : start.Unused lots') : (start.ids ++ drawnIds lots' (last.wantedOrder pushes wanted)).Nodup :=
  unused.fresh (serial.once.sublist List.filter_sublist)

/-- Where all pushes have ended, those of wanted components can be carried out in turn, with everything
renamed. -/
theorem exists_in_turn (serial : last.Serial commandLine config pushes lots start)
    (complete : last.Complete) (unused : start.Unused lots) (unused' : start.Unused lots')
    (fixed : π.holdings start = start) (drawn : ∀ n ∈ last.order, lots' n = (lots n).map π.lot)
    (wanted : Option String → Bool) :
    ∃ ran after, InTurn commandLine config pushes lots' start ran after ∧
      ran.map (·.1) = last.wantedOrder pushes wanted := by
  refine InTurn.exists_of_parts serial.known_of_wanted (fun component => ?_) fixed
    (fun n hn => drawn n (List.mem_of_mem_filter hn)) (serial.fresh_of_wanted unused)
    (serial.fresh_of_wanted unused')
  rw [filter_wantedOrder]
  split
  · obtain ⟨ran, turns, numbers, -⟩ := serial.turns complete component
    exact ⟨ran, _, turns, numbers⟩
  · exact ⟨[], _, .start, rfl⟩

/-- However the pushes of wanted components are carried out in turn, those of any one of them end as they
did and leave what they left in its part, up to the renaming. -/
theorem part_in_turn (serial : last.Serial commandLine config pushes lots start)
    (complete : last.Complete) (unused : start.Unused lots) (unused' : start.Unused lots')
    (fixed : π.holdings start = start) (drawn : ∀ n ∈ last.order, lots' n = (lots n).map π.lot)
    (turns : InTurn commandLine config pushes lots' start ran after)
    (numbers : ran.map (·.1) = last.wantedOrder pushes wanted) {component : String}
    (want : wanted (some component) = true) :
    after.part (some component) = π.holdings (last.pool.holdings.part (some component)) ∧
      ∀ e ∈ ran, componentOf? pushes e.1 = some component →
        ∃ verdict, last.EndedWith e.1 verdict ∧ e.2 = verdict.map π.report := by
  obtain ⟨inPart, hturns, hnumbers, ended⟩ := serial.turns complete component
  have hown : inPart.map (·.1) =
      (ran.map (·.1)).filter fun n => componentOf? pushes n = some component := by
    rw [numbers, filter_wantedOrder, if_pos want, hnumbers]
  obtain ⟨hafter, hsame⟩ := hturns.part_renamed turns hown fixed
    (fun n hn => drawn n (List.mem_of_mem_filter (numbers ▸ hn)))
    (numbers ▸ serial.fresh_of_wanted unused) (numbers ▸ serial.fresh_of_wanted unused')
  refine ⟨hafter, fun e he hcomponent => ?_⟩
  have hmem : e ∈ ran.filter fun e => componentOf? pushes e.1 = some component :=
    List.mem_filter.2 ⟨he, decide_eq_true hcomponent⟩
  rw [hsame] at hmem
  obtain ⟨e', he', rfl⟩ := List.mem_map.1 hmem
  exact ⟨e'.2, ended e' he', rfl⟩

/-- However the pushes of wanted components are carried out in turn, they all end as they did. -/
theorem ends_in_turn (serial : last.Serial commandLine config pushes lots start)
    (complete : last.Complete) (unused : start.Unused lots) (unused' : start.Unused lots')
    (fixed : π.holdings start = start) (drawn : ∀ n ∈ last.order, lots' n = (lots n).map π.lot)
    (turns : InTurn commandLine config pushes lots' start ran after)
    (numbers : ran.map (·.1) = last.wantedOrder pushes wanted) :
    ∀ e ∈ ran, ∃ verdict, last.EndedWith e.1 verdict ∧ e.2 = verdict.map π.report := by
  intro e he
  have hn : e.1 ∈ last.wantedOrder pushes wanted := numbers ▸ List.mem_map_of_mem he
  obtain ⟨⟨p, listing⟩, found⟩ := serial.known_of_wanted e.1 hn
  have hcomponent : componentOf? pushes e.1 = some p.component := componentOf?_eq found
  have want : wanted (some p.component) = true := hcomponent ▸ (List.mem_filter.1 hn).2
  exact (serial.part_in_turn complete unused unused' fixed drawn turns numbers want).2 e he hcomponent

/-- A push that has ended got its lock if it passed its checks, and if not it only said so. -/
theorem rejected (serial : last.Serial commandLine config pushes lots start) (complete : last.Complete)
    {n : Nat} {p : Push} {listing : UrlListing} (found : pushes[n]? = some (p, listing)) :
    (n ∈ last.order ∧ p.check = .ok ()) ∨
      (n ∉ last.order ∧ ∃ error, p.check = .error error ∧ last.EndedWith n (.error error)) := by
  have htask := serial.tasks n
  rw [found, Option.map_eq_some_iff] at htask
  obtain ⟨task, htask, hpush⟩ := htask
  obtain ⟨rfl, rfl⟩ := Prod.mk.inj hpush
  obtain ⟨verdict, other, hother, hended⟩ := complete n (List.getElem?_eq_some_iff.1 htask).1
  obtain rfl := Option.some.inj (htask.symm.trans hother)
  cases serial.stands htask with
  | finished _ passed got => exact .inl ⟨got, passed⟩
  | refused stage fails new => exact .inr ⟨new, _, fails, task, htask, stage⟩
  | idle stage | waiting stage | working stage => simp [hended] at stage

end Serial

/-- **Pushes are serialisable.** Pushes of any components are carried out at once and all of them end. Each
got its lock, unless it did not pass its checks and only said so. Let other lots be given for the same
calls, to which the same becomes but which draw other ids and names. Then up to one renaming that leaves
alone what there was at the start, the pushes can be carried out in turn in the order in which they got
their locks, and whenever they are, every push ends as it did and the engine holds what it held in the end;
and so can the pushes of any one component without the others, they end as they did, and the component's
part is what it was in the end. -/
theorem serialisable (reached : (ofPushes start pushes lots).Reaches commandLine config last)
    (complete : last.Complete) (unused : start.Unused lots) (unused' : start.Unused lots')
    (fates : ∀ n, (lots n).map (·.fate) = (lots' n).map (·.fate)) :
    last.order.Nodup ∧
    (∀ n p listing, pushes[n]? = some (p, listing) → (n ∈ last.order ∧ p.check = .ok ()) ∨
      (n ∉ last.order ∧ ∃ error, p.check = .error error ∧ last.EndedWith n (.error error))) ∧
    ∃ π : Renaming, π.holdings start = start ∧
      (∀ n < pushes.length, lots' n = (lots n).map π.lot) ∧
      (∃ ran after, InTurn commandLine config pushes lots' start ran after ∧
        ran.map (·.1) = last.order) ∧
      (∀ ran after, InTurn commandLine config pushes lots' start ran after →
        ran.map (·.1) = last.order →
        (∀ e ∈ ran, ∃ verdict, last.EndedWith e.1 verdict ∧ e.2 = verdict.map π.report) ∧
        after.volumes.Perm (π.holdings last.pool.holdings).volumes ∧
        after.containers.Perm (π.holdings last.pool.holdings).containers) ∧
      ∀ component,
        (∃ ran after, InTurn commandLine config pushes lots' start ran after ∧
          ran.map (·.1) = last.orderOf pushes component) ∧
        ∀ ran after, InTurn commandLine config pushes lots' start ran after →
          ran.map (·.1) = last.orderOf pushes component →
          (∀ e ∈ ran, ∃ verdict, last.EndedWith e.1 verdict ∧ e.2 = verdict.map π.report) ∧
          after.part (some component) = π.holdings (last.pool.holdings.part (some component)) := by
  have serial : last.Serial commandLine config pushes lots start :=
    reached.serial (Serial.ofPushes unused)
  obtain ⟨π, fixed, drawn⟩ := unused.exists_renaming unused' fates pushes.length
  have drawn' : ∀ n ∈ last.order, lots' n = (lots n).map π.lot := by
    intro n hn
    obtain ⟨task, found⟩ := serial.known n hn
    exact drawn n (List.getElem?_eq_some_iff.1 (serial.pushes_found found)).1
  have hall : last.wantedOrder pushes (fun _ => true) = last.order :=
    List.filter_eq_self.2 fun _ _ => rfl
  refine ⟨serial.once, fun n p listing found => serial.rejected complete found, π, fixed, drawn,
    hall ▸ serial.exists_in_turn complete unused unused' fixed drawn' fun _ => true, ?_,
    fun component => ⟨serial.exists_in_turn complete unused unused' fixed drawn' (· = some component),
      ?_⟩⟩
  · intro ran after turns numbers
    have numbers' := numbers.trans hall.symm
    refine ⟨serial.ends_in_turn complete unused unused' fixed drawn' turns numbers',
      Holdings.perm_of_parts fun owner => ?_⟩
    rw [Renaming.part_holdings]
    cases owner with
    | some component =>
      exact (serial.part_in_turn complete unused unused' fixed drawn' turns numbers' rfl).1
    | none =>
      rw [turns.part_none (numbers' ▸ serial.fresh_of_wanted unused'), serial.unowned,
        ← Renaming.part_holdings, fixed]
  · intro ran after turns numbers
    have numbers' : ran.map (·.1) = last.wantedOrder pushes (· = some component) := numbers
    exact ⟨serial.ends_in_turn complete unused unused' fixed drawn' turns numbers',
      (serial.part_in_turn complete unused unused' fixed drawn' turns numbers' (by simp)).1⟩

/-! ## Two pushes of different components -/

/-- A push of another component. -/
def other : Push := { Push.sample with component := "desk" }

/-- Two pushes, of one component each. -/
def samplePushes : List (Push × UrlListing) :=
  [(.sample, Push.sampleListing), (other, Push.sampleListing)]

/-- The first push makes a volume and is not told so; the second is refused its first call. -/
def sampleLots (first second third : String) : Nat → List Lot
  | 0 => [⟨.served 0, first, first⟩, ⟨.expired true, second, second⟩]
  | 1 => [⟨.refused "down" false, third, third⟩]
  | _ => []

theorem drawnOnce_sample {draw : Lot → String} (own : ∀ fate name, draw ⟨fate, name, name⟩ = name)
    {first second third : String} (distinct : [first, second, third].Nodup) :
    DrawnOnce draw (sampleLots first second third) [] where
  once n := by
    rcases n with _ | _ | n <;> simp_all [sampleLots]
  apart m n hne := by
    rcases m with _ | _ | m <;> rcases n with _ | _ | n <;> simp [sampleLots, own] <;> grind
  new n := List.disjoint_nil_left _

theorem unused_sample {first second third : String} (distinct : [first, second, third].Nodup) :
    Holdings.Unused ⟨[], []⟩ (sampleLots first second third) where
  distinct := List.nodup_nil
  ids := drawnOnce_sample (fun _ _ => rfl) distinct
  names := drawnOnce_sample (fun _ _ => rfl) distinct

/-- The two pushes at once, before they begin. -/
def sample : Schedule := ofPushes ⟨[], []⟩ samplePushes (sampleLots "a" "b" "c")

/-- The second push gets its lock first, and its only call falls between the two calls of the first. -/
theorem reaches_sample :
    ∃ last, sample.Reaches (fun _ => "") .standard last ∧ last.Complete ∧ last.order = [1, 0] ∧
      last.pool.holdings = ⟨[⟨"b", VolumeRole.projectSource.labels "shop"⟩], []⟩ := by
  have h₁ := Reaches.refl.step (@Step.begin (fun _ => "") .standard sample 0 _ rfl rfl rfl)
  have h₂ := h₁.step (@Step.begin _ _ _ 1 _ rfl rfl rfl)
  have h₃ := h₂.step (@Step.acquire _ _ _ 1 _ _ rfl rfl rfl (by decide))
  have h₄ := h₃.step (@Step.acquire _ _ _ 0 _ _ rfl rfl rfl (by decide))
  have h₅ := h₄.step (@Step.call _ _ _ 0 _ _ (.listVolumes (VolumeRole.projectSource.labels "shop")) _
    _ _ (.reply []) rfl rfl (by decide) rfl rfl ⟨0, rfl, .refl _⟩)
  have h₆ := h₅.step (@Step.call _ _ _ 1 _ _ (.listVolumes (VolumeRole.projectSource.labels "desk")) _
    _ _ (.refused "down") rfl rfl (by decide) rfl rfl (.inl ⟨false, rfl⟩))
  have h₇ := h₆.step (@Step.finish _ _ _ 1 _ _ _ rfl rfl (by decide) rfl)
  have h₈ := h₇.step (@Step.call _ _ _ 0 _ _ (.createVolume (VolumeRole.projectSource.stem "shop")
    (VolumeRole.projectSource.labels "shop")) _ _ _ .expired rfl rfl (by decide) rfl rfl ⟨true, rfl⟩)
  have h₉ := h₈.step (@Step.finish _ _ _ 0 _ _ _ rfl rfl (by decide) rfl)
  refine ⟨_, h₉, ?_, rfl, rfl⟩
  intro n hn
  rcases n with _ | _ | n
  · exact ⟨_, _, rfl, rfl⟩
  · exact ⟨_, _, rfl, rfl⟩
  · have hlt : n + 2 < 2 := hn
    omega

/-- In turn, and with other names drawn, the two pushes leave the same volume by its other name. -/
theorem serialisable_sample :
    ∃ last, sample.Reaches (fun _ => "") .standard last ∧ last.order = [1, 0] ∧
      ∃ ran after, InTurn (fun _ => "") .standard samplePushes (sampleLots "x" "y" "z") ⟨[], []⟩ ran
          after ∧
        ran.map (·.1) = [1, 0] ∧
        after.volumes = [⟨"y", VolumeRole.projectSource.labels "shop"⟩] := by
  obtain ⟨last, reached, complete, order, holdings⟩ := reaches_sample
  have unused' : Holdings.Unused ⟨[], []⟩ (sampleLots "x" "y" "z") := unused_sample (by decide)
  have fates : ∀ n, (sampleLots "a" "b" "c" n).map (·.fate) =
      (sampleLots "x" "y" "z" n).map (·.fate) := by
    intro n
    rcases n with _ | _ | n <;> rfl
  obtain ⟨-, -, π, -, drawn, ⟨ran, after, turns, numbers⟩, hall, -⟩ :=
    serialisable reached complete (unused_sample (by decide)) unused' fates
  obtain ⟨-, hvolumes, -⟩ := hall ran after turns numbers
  have hname : "y" = π.names "b" :=
    Option.some.inj (congrArg (fun lots => (lots.map Lot.volume)[1]?) (drawn 0 (by decide)))
  refine ⟨last, reached, order, ran, after, turns, numbers.trans order, ?_⟩
  rw [holdings] at hvolumes
  rw [hname]
  exact List.perm_singleton.1 hvolumes

end Schedule

end DevfilePush
