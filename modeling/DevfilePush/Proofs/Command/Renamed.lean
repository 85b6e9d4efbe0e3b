import DevfilePush.Command.Execution
import DevfilePush.Proofs.Engine.Twins

/-!
# Running commands under a renaming

A command runs in the container of its alias, whatever the container's id is. Where that is another one,
and every alias in question has one container only, the same commands run in the same containers, in
whichever order these are listed.

## Main statements

* `Command.target_renamed`: the same container is the target.
* `CommandSelection.runAll_twins`: all commands of a push.
-/

namespace DevfilePush

variable {commandLine : ContainerConfig → String} {π : Renaming} {component : String} {ctx : Context}
  {h : Holdings} {live live' : List ListedContainer}

namespace Command

variable {command : Command} {container : ListedContainer}

/-- The only container of an alias is found in any listing. -/
theorem target_renamed (same : live'.Perm (live.map π.listed))
    (only : ∀ x ∈ live, ∀ y ∈ live, x.alias? = some command.component →
      y.alias? = some command.component → x = y) :
    command.target ctx live' = (command.target ctx live).map π.listed := by
  unfold target
  cases hfind : live.find? fun c => c.alias? = some command.component with
  | none =>
    have hnone : (live'.find? fun c => c.alias? = some command.component) = none := by
      rw [List.find?_eq_none] at hfind ⊢
      intro y hy
      obtain ⟨x, hx, rfl⟩ := List.mem_map.1 (same.mem_iff.1 hy)
      exact hfind x hx
    rw [hnone]
    rfl
  | some x =>
    have hx : x ∈ live := List.mem_of_find?_eq_some hfind
    have halias : x.alias? = some command.component := by simpa using List.find?_some hfind
    obtain ⟨y, hy⟩ : ∃ y, (live'.find? fun c => c.alias? = some command.component) = some y := by
      have hx' : π.listed x ∈ live' := same.mem_iff.2 (List.mem_map_of_mem hx)
      exact Option.isSome_iff_exists.1 (List.find?_isSome.2 ⟨π.listed x, hx', decide_eq_true halias⟩)
    have hyalias : y.alias? = some command.component := by simpa using List.find?_some hy
    obtain ⟨z, hz, rfl⟩ := List.mem_map.1 (same.mem_iff.1 (List.mem_of_find?_eq_some hy))
    rw [hy, only z hz x hx hyalias halias]
    rfl

theorem judge_twins (code : Int32) :
    (command.judge code).Twins commandLine π component (fun _ _ _ => True) (command.judge code) h := by
  unfold judge
  split
  · trivial
  · rfl

/-- Words are executed in the same container. -/
theorem execute_twins (argv : List String) :
    (command.execute ctx container argv).Twins commandLine π component (fun _ _ _ => True)
      (command.execute ctx (π.listed container) argv) h := by
  have keeps : (Request.exec container.id argv ctx.config.showOutput).KeepsTo component h := trivial
  refine Script.twins_note_bind ⟨rfl, keeps, fun lot answer answer' ids _ answers answers' => ?_⟩
  rcases Renaming.answers_cases commandLine keeps ids answers answers' with
    ⟨code, code', rfl, rfl, -, hcode⟩ | ⟨reason, rfl, rfl⟩ | ⟨rfl, rfl⟩
  · obtain rfl : code = code' := Eq.symm hcode
    exact judge_twins code
  · rfl
  · rfl

theorem act_twins (action : Action) :
    (command.act ctx container action).Twins commandLine π component
      (fun executed executed' _ => executed' = executed)
      (command.act ctx (π.listed container) action) h := by
  cases action with
  | shell => exact (execute_twins _).bind fun _ _ _ _ => rfl
  | launchSupervisor =>
    unfold act
    by_cases hruns : ctx.config.supervisor.runsIn container = true
    · have hruns' : ctx.config.supervisor.runsIn (π.listed container) = true := hruns
      simp only [hruns, hruns', if_true]
      exact rfl
    · have hruns' : ¬ ctx.config.supervisor.runsIn (π.listed container) = true := hruns
      simp only [hruns, hruns']
      exact (execute_twins _).bind fun _ _ _ _ => rfl
  | restart => exact (execute_twins _).bind fun _ _ _ _ => (execute_twins _).bind fun _ _ _ _ => rfl
  | start => exact Script.twins_note_bind ((execute_twins _).bind fun _ _ _ _ => rfl)

theorem actEach_twins (group : CommandGroup) (actions : List Action) :
    (command.actEach ctx group container actions).Twins commandLine π component
      (fun records records' _ => records' = records)
      (command.actEach ctx group (π.listed container) actions) h := by
  induction actions generalizing h with
  | nil => exact rfl
  | cons action rest ih =>
    refine (act_twins action).bind ?_
    rintro executed executed' k rfl
    refine ih.bind ?_
    rintro records records' l rfl
    exact rfl

/-- A command does the same in its container. -/
theorem run_twins (group : CommandGroup) (allKept : Bool) (same : live'.Perm (live.map π.listed))
    (only : ∀ x ∈ live, ∀ y ∈ live, x.alias? = some command.component →
      y.alias? = some command.component → x = y) :
    (command.run ctx group allKept live).Twins commandLine π component
      (fun records records' _ => records' = records) (command.run ctx group allKept live') h := by
  unfold run
  cases command.actions group allKept with
  | nil => exact rfl
  | cons action rest =>
    exact Script.twins_ofExcept_bind (target_renamed same only) fun container _ =>
      Script.twins_note_bind (actEach_twins group _)

end Command

namespace CommandSelection

theorem runEach_twins (allKept : Bool) (same : live'.Perm (live.map π.listed))
    {commands : List (CommandGroup × Command)}
    (only : ∀ e ∈ commands, ∀ x ∈ live, ∀ y ∈ live, x.alias? = some e.2.component →
      y.alias? = some e.2.component → x = y) :
    (runEach ctx allKept live commands).Twins commandLine π component
      (fun records records' _ => records' = records) (runEach ctx allKept live' commands) h := by
  induction commands generalizing h with
  | nil => exact rfl
  | cons e rest ih =>
    rw [List.forall_mem_cons] at only
    refine (Command.run_twins e.1 allKept same only.1).bind ?_
    rintro first first' k rfl
    refine (ih only.2).bind ?_
    rintro others others' l rfl
    exact rfl

/-- **Commands.** The same commands do the same. -/
theorem runAll_twins {s : CommandSelection} (allKept : Bool) (same : live'.Perm (live.map π.listed))
    (only : ∀ e ∈ s.commands, ∀ x ∈ live, ∀ y ∈ live, x.alias? = some e.2.component →
      y.alias? = some e.2.component → x = y) :
    (runAll ctx s allKept live).Twins commandLine π component
      (fun report report' _ => report' = report) (runAll ctx s allKept live') h := by
  unfold runAll
  split
  · rfl
  · refine (runEach_twins allKept same only).bind ?_
    rintro records records' k rfl
    exact rfl

end CommandSelection

end DevfilePush
