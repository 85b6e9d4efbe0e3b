import DevfilePush.Command.Selection
import DevfilePush.Proofs.Devfile.Check
import Mathlib.Data.List.Nodup

/-!
# Which commands are selected

What comes of the choice within one group is read off the group's own commands and the id that is chosen
for it: the first command of that id, or else the only command, or else the only default one. A selection
is the choices of all groups, so it succeeds if and only if every group has a clear choice, and otherwise
reports the first group that has none. Where ids differ within a group, the order in which commands are
declared makes no difference.

## Main definitions

* `Overrides.chosen`, `CommandSelection.slot`: the id and the command of a group.
* `Choice`: what comes of the choice within one group.
* `HasClearChoice`: when a group has a command to choose, or none to choose from.
* `TellsOf`: what the result of a selection tells of one group.

## Main statements

* `chooseCommand_eq_iff`: the choice within a group is the one that is called for.
* `CommandSelection.ofCommands_exact`: what is selected, what is reported and what it depends on.
-/

namespace DevfilePush

/-- Of three things, one for each group, the one that is for a group. -/
def CommandGroup.pick {α : Type} (group : CommandGroup) (init build run : α) : α :=
  match group with
  | .init => init
  | .build => build
  | .run => run

/-- The id that is chosen for a group. -/
def Overrides.chosen (o : Overrides) (group : CommandGroup) : Option String :=
  group.pick o.init o.build o.run

theorem Overrides.get_eq_chosen (o : Overrides) (group : CommandGroup) : o.get group = o.chosen group := by
  cases group <;> rfl

/-- The command that is selected for a group. -/
def CommandSelection.slot (s : CommandSelection) (group : CommandGroup) : Option Command :=
  group.pick s.init s.build s.run

/-- The first command of an id in a list. -/
def Command.IsFirstOf (c : Command) (id : String) (candidates : List Command) : Prop :=
  c.id = id ∧ ∃ before after, candidates = before ++ c :: after ∧ ∀ b ∈ before, b.id ≠ id

/-- What comes of the choice within one group, from the group's commands in declaration order and the id
that is chosen for it, if one is. -/
inductive Choice (group : CommandGroup) (candidates : List Command) :
    Option String → Except Misconfiguration (Option Command) → Prop
  /-- Of the commands with the chosen id the first is taken. -/
  | byId {id : String} {c : Command} (first : c.IsFirstOf id candidates) :
      Choice group candidates (some id) (.ok (some c))
  /-- No command has the chosen id. -/
  | unknown {id : String} (absent : ∀ c ∈ candidates, c.id ≠ id) :
      Choice group candidates (some id) (.error (.unknownCommand id group))
  /-- There is nothing to choose from. -/
  | nothing (empty : candidates = []) : Choice group candidates none (.ok none)
  /-- The only command is taken, whether it is a default or not. -/
  | only {c : Command} (single : candidates = [c]) : Choice group candidates none (.ok (some c))
  /-- Of several commands the only default is taken. -/
  | byDefault {c : Command} (several : 2 ≤ candidates.length)
      (single : candidates.filter (·.isDefault) = [c]) : Choice group candidates none (.ok (some c))
  /-- Of several commands none is a default. -/
  | noDefault (several : 2 ≤ candidates.length) (absent : ∀ c ∈ candidates, c.isDefault = false) :
      Choice group candidates none (.error (.noDefault group))
  /-- Several commands are defaults. -/
  | severalDefaults (several : 2 ≤ (candidates.filter (·.isDefault)).length) :
      Choice group candidates none
        (.error (.severalDefaults group (candidates.filter (·.isDefault)).length))

/-- A group has a clear choice: a command has the id that is chosen, or no id is chosen and there is at
most one command or exactly one default. -/
def HasClearChoice (candidates : List Command) : Option String → Prop
  | some id => ∃ c ∈ candidates, c.id = id
  | none => candidates.length ≤ 1 ∨ (candidates.filter (·.isDefault)).length = 1

/-- The group whose commands a misconfiguration is about, if it is about those of one group. -/
def Misconfiguration.group? : Misconfiguration → Option CommandGroup
  | unknownCommand _ group => some group
  | noDefault group => some group
  | severalDefaults group _ => some group
  | undeclaredTarget group _ _ => some group
  | noComponents | noCommands | missingContainer .. | other _ => none

/-- What the result of a selection tells of one group: its command if there is a selection, and its error
if it is the one at fault. -/
inductive TellsOf (group : CommandGroup) :
    Except Misconfiguration CommandSelection → Except Misconfiguration (Option Command) → Prop
  | selected (s : CommandSelection) : TellsOf group (.ok s) (.ok (s.slot group))
  | atFault {e : Misconfiguration} (about : e.group? = some group) : TellsOf group (.error e) (.error e)

/-- The first member at fault of a list is its head, or the head is not at fault and it is the first one
of the tail. -/
theorem exists_first_cons_iff {α : Type} {good bad : α → Prop} {x : α} {xs : List α} :
    (∃ earlier a later, x :: xs = earlier ++ a :: later ∧ (∀ b ∈ earlier, good b) ∧ bad a) ↔
      bad x ∨ good x ∧
        ∃ earlier a later, xs = earlier ++ a :: later ∧ (∀ b ∈ earlier, good b) ∧ bad a := by
  constructor
  · rintro ⟨_ | ⟨y, earlier⟩, a, later, hsplit, hgood, hbad⟩
    · obtain ⟨rfl, -⟩ := List.cons.inj hsplit
      exact .inl hbad
    · obtain ⟨rfl, hrest⟩ := List.cons.inj hsplit
      rw [List.forall_mem_cons] at hgood
      exact .inr ⟨hgood.1, earlier, a, later, hrest, hgood.2, hbad⟩
  · rintro (hbad | ⟨hx, earlier, a, later, rfl, hgood, hbad⟩)
    · exact ⟨[], x, xs, rfl, by simp, hbad⟩
    · exact ⟨x :: earlier, a, later, rfl, List.forall_mem_cons.2 ⟨hx, hgood⟩, hbad⟩

/-! ## One group -/

section Group

variable {group : CommandGroup} {candidates : List Command} {id : String} {c : Command}
  {chosen : Option String} {commands : List Command}
  {outcome : Except Misconfiguration (Option Command)}

theorem Command.isFirstOf_iff : c.IsFirstOf id candidates ↔ candidates.find? (·.id = id) = some c := by
  simp [IsFirstOf, List.find?_eq_some_iff_append]

/-- Among several commands and without a chosen id the default is taken. -/
theorem chooseCommand_of_several (own : commands.filter (·.group = group) = candidates)
    (several : 2 ≤ candidates.length) :
    chooseCommand commands none group = (chooseDefault group candidates).map some := by
  simp only [chooseCommand, commandsOf, own]
  rcases candidates with _ | ⟨a, _ | ⟨b, rest⟩⟩
  · simp at several
  · simp at several
  · rfl

/-- The choice among the commands of a group that is called for is made. -/
theorem Choice.eq (own : commands.filter (·.group = group) = candidates)
    (h : Choice group candidates chosen outcome) :
    chooseCommand commands chosen group = outcome := by
  cases h with
  | byId first => simp [chooseCommand, commandsOf, own, Command.isFirstOf_iff.1 first]
  | @unknown id absent =>
    have hnone : candidates.find? (·.id = id) = none := by
      simpa [List.find?_eq_none] using absent
    simp [chooseCommand, commandsOf, own, hnone]
  | nothing empty => simp [chooseCommand, commandsOf, own, empty]
  | only single => simp [chooseCommand, commandsOf, own, single]
  | byDefault several single =>
    rw [chooseCommand_of_several own several, chooseDefault, single]
    rfl
  | noDefault several absent =>
    have hnone : candidates.filter (·.isDefault) = [] := by
      simpa [List.filter_eq_nil_iff] using absent
    rw [chooseCommand_of_several own several, chooseDefault, hnone]
    rfl
  | severalDefaults several =>
    have hlength : 2 ≤ candidates.length := Nat.le_trans several (List.length_filter_le _ _)
    rw [chooseCommand_of_several own hlength, chooseDefault]
    rcases hdefaults : candidates.filter (·.isDefault) with _ | ⟨a, _ | ⟨b, rest⟩⟩
    · simp [hdefaults] at several
    · simp [hdefaults] at several
    · rw [hdefaults]
      rfl

/-- One thing or another is called for in every group. -/
theorem exists_choice (group : CommandGroup) (candidates : List Command) (chosen : Option String) :
    ∃ outcome, Choice group candidates chosen outcome := by
  cases chosen with
  | some id =>
    cases hfind : candidates.find? (·.id = id) with
    | some c => exact ⟨_, .byId (Command.isFirstOf_iff.2 hfind)⟩
    | none => exact ⟨_, .unknown (by simpa [List.find?_eq_none] using hfind)⟩
  | none =>
    rcases candidates with _ | ⟨a, _ | ⟨b, rest⟩⟩
    · exact ⟨_, .nothing rfl⟩
    · exact ⟨_, .only rfl⟩
    have several : 2 ≤ (a :: b :: rest).length := by simp
    rcases hdefaults : (a :: b :: rest).filter (·.isDefault) with _ | ⟨c, _ | ⟨d, others⟩⟩
    · exact ⟨_, .noDefault several fun c hc => by simpa using List.filter_eq_nil_iff.1 hdefaults c hc⟩
    · exact ⟨_, .byDefault several hdefaults⟩
    · exact ⟨_, .severalDefaults (by rw [hdefaults]; simp)⟩

/-- **One group.** The choice within a group is the one that is called for among its commands. -/
theorem chooseCommand_eq_iff :
    chooseCommand commands chosen group = outcome ↔
      Choice group (commands.filter (·.group = group)) chosen outcome := by
  constructor
  · rintro rfl
    obtain ⟨outcome, h⟩ := exists_choice group (commands.filter (·.group = group)) chosen
    rwa [h.eq rfl]
  · exact Choice.eq rfl

/-- An error is about the group in which it arises. -/
theorem Choice.group_of_error {e : Misconfiguration} (h : Choice group candidates chosen (.error e)) :
    e.group? = some group := by
  cases h <;> rfl

/-- Only one thing is called for. -/
theorem Choice.unique {other : Except Misconfiguration (Option Command)}
    (h : Choice group (commands.filter (·.group = group)) chosen outcome)
    (h' : Choice group (commands.filter (·.group = group)) chosen other) : outcome = other :=
  (h.eq rfl).symm.trans (h'.eq rfl)

/-- A group has a clear choice if and only if no error is called for. -/
theorem hasClearChoice_iff :
    HasClearChoice candidates chosen ↔ ∃ slot, Choice group candidates chosen (.ok slot) := by
  constructor
  · intro clear
    obtain ⟨outcome, h⟩ := exists_choice group candidates chosen
    cases h with
    | byId first => exact ⟨_, .byId first⟩
    | nothing empty => exact ⟨_, .nothing empty⟩
    | only single => exact ⟨_, .only single⟩
    | byDefault several single => exact ⟨_, .byDefault several single⟩
    | unknown absent =>
      obtain ⟨c, hc, hid⟩ := clear
      exact absurd hid (absent c hc)
    | noDefault several absent =>
      have hnone : candidates.filter (·.isDefault) = [] := by
        simpa [List.filter_eq_nil_iff] using absent
      rw [HasClearChoice, hnone, List.length_nil] at clear
      omega
    | severalDefaults several =>
      have hle : (candidates.filter (·.isDefault)).length ≤ candidates.length :=
        List.length_filter_le _ _
      rw [HasClearChoice] at clear
      omega
  · rintro ⟨slot, h⟩
    cases h with
    | byId first =>
      obtain ⟨hid, before, after, rfl, -⟩ := first
      exact ⟨_, List.mem_append_right _ List.mem_cons_self, hid⟩
    | nothing empty => exact .inl (by simp [empty])
    | only single => exact .inl (by simp [single])
    | byDefault several single => exact .inr (by rw [single]; rfl)

/-- A group has a clear choice if and only if the choice within it is made. -/
theorem hasClearChoice_iff_ok :
    HasClearChoice (commands.filter (·.group = group)) chosen ↔
      ∃ slot, chooseCommand commands chosen group = .ok slot := by
  rw [@hasClearChoice_iff group]
  simp only [chooseCommand_eq_iff]

/-- What is chosen is one of the commands, and nothing is chosen if and only if there is no command and no
id. -/
theorem Choice.slot {slot : Option Command} (h : Choice group candidates chosen (.ok slot)) :
    (slot = none ↔ candidates = [] ∧ chosen = none) ∧ ∀ c, slot = some c → c ∈ candidates := by
  have hmem : ∀ c, c ∈ candidates →
      (some c = none ↔ candidates = [] ∧ chosen = none) ∧ ∀ d, some c = some d → d ∈ candidates := by
    intro c hc
    refine ⟨⟨nofun, fun h => absurd h.1 (List.ne_nil_of_mem hc)⟩, ?_⟩
    rintro d hd
    exact Option.some.inj hd ▸ hc
  cases h with
  | byId first =>
    obtain ⟨-, before, after, hsplit, -⟩ := first
    exact hmem _ (hsplit ▸ List.mem_append_right _ List.mem_cons_self)
  | nothing empty => exact ⟨⟨fun _ => ⟨empty, rfl⟩, fun _ => rfl⟩, nofun⟩
  | only single => exact hmem _ (single ▸ List.mem_cons_self)
  | byDefault several single =>
    exact hmem _ (List.mem_of_mem_filter (single ▸ List.mem_cons_self))

/-- Where ids differ, the order of the commands makes no difference to the choice. -/
theorem Choice.of_perm {candidates' : List Command} (perm : candidates'.Perm candidates)
    (distinct : (candidates.map (·.id)).Nodup) (h : Choice group candidates chosen outcome) :
    Choice group candidates' chosen outcome := by
  have hdefaults : (candidates'.filter (·.isDefault)).Perm (candidates.filter (·.isDefault)) :=
    perm.filter _
  cases h with
  | @byId id c first =>
    obtain ⟨hid, before, after, hsplit, -⟩ := first
    have hc : c ∈ candidates := hsplit ▸ List.mem_append_right _ List.mem_cons_self
    cases hfind : candidates'.find? (·.id = id) with
    | some c' =>
      have first' := Command.isFirstOf_iff.2 hfind
      have hc' : c' ∈ candidates := perm.subset (List.mem_of_find?_eq_some hfind)
      obtain rfl : c' = c := List.inj_on_of_nodup_map distinct hc' hc (first'.1.trans hid.symm)
      exact .byId first'
    | none =>
      have habsent := List.find?_eq_none.1 hfind c (perm.symm.subset hc)
      simp [hid] at habsent
  | unknown absent => exact .unknown fun c hc => absent c (perm.subset hc)
  | nothing empty => exact .nothing (List.perm_nil.1 (empty ▸ perm))
  | only single => exact .only (List.perm_singleton.1 (single ▸ perm))
  | byDefault several single =>
    exact .byDefault (perm.length_eq ▸ several) (List.perm_singleton.1 (single ▸ hdefaults))
  | noDefault several absent =>
    exact .noDefault (perm.length_eq ▸ several) fun c hc => absent c (perm.subset hc)
  | severalDefaults several =>
    rw [← hdefaults.length_eq] at several ⊢
    exact .severalDefaults several

end Group

/-! ## All groups -/

namespace CommandSelection

variable {commands : List Command} {overrides : Overrides}

/-- A selection is made of the choices of all groups. -/
theorem ofCommands_ok_iff {s : CommandSelection} :
    ofCommands commands overrides = .ok s ↔
      ∀ g, Choice g (commands.filter (·.group = g)) (overrides.chosen g) (.ok (s.slot g)) := by
  simp only [← chooseCommand_eq_iff, ofCommands, Overrides.get_eq_chosen, Except.bind_ok_iff]
  constructor
  · rintro ⟨init, hinit, build, hbuild, run, hrun, hs⟩ g
    obtain rfl := (Except.ok.inj hs)
    cases g
    · exact hinit
    · exact hbuild
    · exact hrun
  · exact fun h => ⟨s.init, h .init, s.build, h .build, s.run, h .run, rfl⟩

/-- The error is that of the first group at fault. -/
theorem ofCommands_error_iff {e : Misconfiguration} :
    ofCommands commands overrides = .error e ↔
      ∃ earlier g later, [.init, .build, .run] = earlier ++ g :: later ∧
        (∀ g' ∈ earlier, HasClearChoice (commands.filter (·.group = g')) (overrides.chosen g')) ∧
        Choice g (commands.filter (·.group = g)) (overrides.chosen g) (.error e) := by
  simp only [exists_first_cons_iff, hasClearChoice_iff_ok, ← chooseCommand_eq_iff, ofCommands,
    Overrides.get_eq_chosen, Except.bind_error_iff, pure, Except.pure]
  simp

/-- What a result tells of a group is what the choice within the group comes to. -/
theorem choice_of_tellsOf {g : CommandGroup} {outcome : Except Misconfiguration (Option Command)}
    (h : TellsOf g (ofCommands commands overrides) outcome) :
    Choice g (commands.filter (·.group = g)) (overrides.chosen g) outcome := by
  generalize hresult : ofCommands commands overrides = result at h
  cases h with
  | selected s => exact ofCommands_ok_iff.1 hresult g
  | @atFault e about =>
    obtain ⟨earlier, g', later, -, -, h⟩ := ofCommands_error_iff.1 hresult
    obtain rfl : g' = g := Option.some.inj (h.group_of_error.symm.trans about)
    exact h

/-- There is a selection if and only if every group has a clear choice. -/
theorem exists_ofCommands_iff :
    (∃ s, ofCommands commands overrides = .ok s) ↔
      ∀ g, HasClearChoice (commands.filter (·.group = g)) (overrides.chosen g) := by
  constructor
  · rintro ⟨s, h⟩ g
    exact hasClearChoice_iff.2 ⟨_, ofCommands_ok_iff.1 h g⟩
  · intro clear
    obtain ⟨init, hinit⟩ := hasClearChoice_iff.1 (clear .init)
    obtain ⟨build, hbuild⟩ := hasClearChoice_iff.1 (clear .build)
    obtain ⟨run, hrun⟩ := hasClearChoice_iff.1 (clear .run)
    refine ⟨⟨init, build, run⟩, ofCommands_ok_iff.2 fun g => ?_⟩
    cases g
    · exact hinit
    · exact hbuild
    · exact hrun

/-- Where ids differ within each group, the order of the commands makes no difference. -/
theorem ofCommands_of_perm {commands' : List Command} (perm : commands'.Perm commands)
    (distinct : ∀ g, ((commands.filter (·.group = g)).map (·.id)).Nodup) :
    ofCommands commands' overrides = ofCommands commands overrides := by
  have hgroup : ∀ g, chooseCommand commands' (overrides.chosen g) g =
      chooseCommand commands (overrides.chosen g) g := by
    intro g
    have h : Choice g (commands.filter (·.group = g)) (overrides.chosen g)
        (chooseCommand commands (overrides.chosen g) g) := chooseCommand_eq_iff.1 rfl
    exact chooseCommand_eq_iff.2 (h.of_perm (perm.filter _) (distinct g))
  simp only [ofCommands, Overrides.get_eq_chosen, hgroup]

/-- **Selection is exact.** There is a selection if and only if every group has a clear choice. It then
holds the choice of each group: a command of that very group, or nothing if the group has no command and
no id is chosen for it. Otherwise the error is that of the first group, in execution order, that has no
clear choice. What a group comes to depends on its own commands and its own chosen id alone; and where
ids differ within each group, the order in which commands are declared makes no difference. -/
theorem ofCommands_exact (commands : List Command) (overrides : Overrides) :
    ((∃ s, ofCommands commands overrides = .ok s) ↔
      ∀ g, HasClearChoice (commands.filter (·.group = g)) (overrides.chosen g)) ∧
    (∀ s, ofCommands commands overrides = .ok s ↔
      ∀ g, Choice g (commands.filter (·.group = g)) (overrides.chosen g) (.ok (s.slot g))) ∧
    (∀ s, ofCommands commands overrides = .ok s → ∀ g,
      (s.slot g = none ↔ (∀ c ∈ commands, c.group ≠ g) ∧ overrides.chosen g = none) ∧
      ∀ c, s.slot g = some c → c ∈ commands ∧ c.group = g) ∧
    (∀ e, ofCommands commands overrides = .error e ↔
      ∃ earlier g later, [.init, .build, .run] = earlier ++ g :: later ∧
        (∀ g' ∈ earlier, HasClearChoice (commands.filter (·.group = g')) (overrides.chosen g')) ∧
        Choice g (commands.filter (·.group = g)) (overrides.chosen g) (.error e)) ∧
    (∀ commands' overrides' g, commands'.filter (·.group = g) = commands.filter (·.group = g) →
      overrides'.chosen g = overrides.chosen g → ∀ outcome outcome',
        TellsOf g (ofCommands commands overrides) outcome →
        TellsOf g (ofCommands commands' overrides') outcome' → outcome' = outcome) ∧
    ∀ commands', commands'.Perm commands →
      (∀ g, ((commands.filter (·.group = g)).map (·.id)).Nodup) →
      ofCommands commands' overrides = ofCommands commands overrides := by
  refine ⟨exists_ofCommands_iff, fun s => ofCommands_ok_iff, ?_, fun e => ofCommands_error_iff, ?_,
    fun commands' => ofCommands_of_perm⟩
  · intro s h g
    simpa [List.filter_eq_nil_iff] using (ofCommands_ok_iff.1 h g).slot
  · intro commands' overrides' g same chosen outcome outcome' tells tells'
    have h' : Choice g (commands'.filter (·.group = g)) (overrides'.chosen g) outcome' :=
      choice_of_tellsOf tells'
    rw [same, chosen] at h'
    exact h'.unique (choice_of_tellsOf tells)

end CommandSelection

end DevfilePush
