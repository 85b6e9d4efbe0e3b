import DevfilePush.Proofs.Push.Commands

/-!
# Which calls start the supervisor

Of what a push has to execute, only the run command has to do with the supervisor: one call that starts
it, in a new component and unless it is what the container runs by itself, and then the calls that stop
or start what it supervises. The lines of the init and build commands go through the shell and are none
of these.

## Main definitions

* `Supervisor.launchedBy`, `Supervisor.controlledBy`: calls that start the supervisor, and calls that
  control what it supervises.
* `CommandSelection.launch`: the call that starts the supervisor, if there is one.

## Main statements

* `CommandSelection.due_eq`: what is due before the supervisor is started, and after it.
* `CommandSelection.launch_before_controls`: nothing is controlled before it is started.
-/

namespace DevfilePush

/-- Whether a call executes these words in the container of this id. -/
def Request.runs (id : String) (words : List String) : Request → Bool
  | .exec other argv _ => other = id ∧ argv = words
  | .listVolumes _ | .createVolume .. | .pullImage _ | .createContainer _ | .removeContainer _
  | .listContainers _ | .inspectContainer _ => false

theorem Request.runs_iff {id : String} {words : List String} {r : Request} :
    r.runs id words = true ↔ ∃ attach, r = .exec id words attach := by
  cases r <;> simp [runs]

@[simp] theorem Request.runs_exec {id other : String} {words argv : List String} {attach : Bool} :
    (Request.exec other argv attach).runs id words = true ↔ other = id ∧ argv = words := by
  simp [runs]

namespace Supervisor

variable (s : Supervisor)

/-- Whether a call starts the supervisor in the container of an id. -/
def launchedBy (id : String) (r : Request) : Bool := r.runs id s.daemonWords

/-- Whether a call stops or starts what is supervised in the container of an id. -/
def controlledBy (id : String) (r : Request) : Bool := r.runs id s.stopWords || r.runs id s.startWords

variable {s} {id other : String} {attach : Bool}

/-- A line that goes through the shell neither starts the supervisor nor controls anything. -/
theorem shell_neither (command : Command) :
    s.launchedBy id (.exec other command.shellWords attach) = false ∧
      s.controlledBy id (.exec other command.shellWords attach) = false := by
  simp [launchedBy, controlledBy, Request.runs, Command.shellWords, daemonWords, stopWords, startWords]

/-- Starting the supervisor controls nothing yet. -/
theorem launch_controls_nothing : s.controlledBy id (.exec other s.daemonWords attach) = false := by
  simp [controlledBy, Request.runs, daemonWords, stopWords, startWords]

/-- What controls the supervised program does not start the supervisor. -/
theorem control_launches_nothing {words : List String} (h : words = s.stopWords ∨ words = s.startWords) :
    s.launchedBy id (.exec other words attach) = false := by
  rcases h with rfl | rfl <;> simp [launchedBy, Request.runs, daemonWords, stopWords, startWords]

end Supervisor

/-- What comes before a member that is not in the first part of a list begins with all of that part. -/
theorem begins_with_of_not_mem {α : Type} {pre plan rest : List α} {x : α}
    (h : pre ++ [x] <+: plan ++ rest) (hx : x ∉ plan) : plan <+: pre ∧ x ∈ rest := by
  obtain ⟨later, hlater⟩ := h
  rw [List.append_assoc, List.singleton_append] at hlater
  rcases List.append_eq_append_iff.1 hlater with ⟨tail, rfl, htail⟩ | ⟨between, rfl, rfl⟩
  · cases tail with
    | nil =>
      obtain rfl : x :: later = rest := htail
      exact ⟨by simp, List.mem_cons_self⟩
    | cons y tail =>
      obtain ⟨rfl, -⟩ := List.cons.inj htail
      simp at hx
  · exact ⟨List.prefix_append _ _, by simp⟩

namespace CommandSelection

variable {s : CommandSelection} {config : Config} {created : Bool} {container : Command → ListedContainer}
  {id : String}

theorem mem_commands_of_run {run : Command} (h : s.run = some run) : (.run, run) ∈ s.commands := by
  simp [commands, CommandGroup.order, get, h]

/-- The call that starts the supervisor, where a container was created, unless the container of the run
command runs it by itself. -/
def launch (s : CommandSelection) (config : Config) (created : Bool)
    (container : Command → ListedContainer) : List Request :=
  s.run.toList.flatMap fun run =>
    if created ∧ config.supervisor.runsIn (container run) = false then
      [.exec (container run).id config.supervisor.daemonWords config.showOutput]
    else []

/-- Of what is due, these are the lines for the shell. -/
def lines (s : CommandSelection) (config : Config) (created : Bool)
    (container : Command → ListedContainer) : List Request :=
  ((if created then s.init.toList else []) ++ s.build.toList).map fun command =>
    .exec (container command).id command.shellWords config.showOutput

/-- Of what is due, these are the calls that control what is supervised. -/
def controls (s : CommandSelection) (config : Config) (created : Bool)
    (container : Command → ListedContainer) : List Request :=
  s.run.toList.flatMap fun run =>
    (if created ∨ run.restart ≠ some false
      then [config.supervisor.stopWords, config.supervisor.startWords]
      else [config.supervisor.startWords]).map fun argv => .exec (container run).id argv config.showOutput

/-- What is due is lines for the shell, then the call that starts the supervisor, then the calls that
control what it supervises. -/
theorem due_eq : s.due config created container =
    (s.lines config created container ++ s.launch config created container) ++
      s.controls config created container := by
  obtain ⟨init, build, run⟩ := s
  cases run with
  | none => simp [due, lines, launch, controls]
  | some run =>
    cases created with
    | true =>
      by_cases hruns : config.supervisor.runsIn (container run) <;>
        simp [due, lines, launch, controls, Command.runWords, hruns]
    | false =>
      by_cases hrestart : run.restart = some false <;>
        simp [due, lines, launch, controls, Command.runWords, hrestart]

theorem of_mem_lines {r : Request} (hr : r ∈ s.lines config created container) :
    config.supervisor.launchedBy id r = false ∧ config.supervisor.controlledBy id r = false := by
  obtain ⟨command, -, rfl⟩ := List.mem_map.1 hr
  exact Supervisor.shell_neither command

/-- The call that starts the supervisor is made in a new component, for a container that does not run it
by itself. -/
theorem of_mem_launch {r : Request} (hr : r ∈ s.launch config created container) :
    created = true ∧ ∃ run, s.run = some run ∧
      r = .exec (container run).id config.supervisor.daemonWords config.showOutput ∧
      config.supervisor.runsIn (container run) = false := by
  obtain ⟨run, hrun, hr⟩ := List.mem_flatMap.1 hr
  split at hr
  · rename_i h
    exact ⟨h.1, run, by simpa using hrun, List.mem_singleton.1 hr, h.2⟩
  · cases hr

theorem of_mem_controls {r : Request} (hr : r ∈ s.controls config created container) :
    ∃ run words, s.run = some run ∧
      (words = config.supervisor.stopWords ∨ words = config.supervisor.startWords) ∧
      r = .exec (container run).id words config.showOutput := by
  obtain ⟨run, hrun, hr⟩ := List.mem_flatMap.1 hr
  obtain ⟨words, hwords, rfl⟩ := List.mem_map.1 hr
  refine ⟨run, words, by simpa using hrun, ?_, rfl⟩
  split at hwords
  · simpa using hwords
  · exact .inr (List.mem_singleton.1 hwords)

/-- All that is due and starts the supervisor is the one call for it. -/
theorem filter_launchedBy_due : (s.due config created container).filter
      (config.supervisor.launchedBy id) =
    (s.launch config created container).filter (config.supervisor.launchedBy id) := by
  have hlines : (s.lines config created container).filter (config.supervisor.launchedBy id) = [] := by
    rw [List.filter_eq_nil_iff]
    intro r hr
    simp [(of_mem_lines hr).1]
  have hcontrols : (s.controls config created container).filter (config.supervisor.launchedBy id) =
      [] := by
    rw [List.filter_eq_nil_iff]
    intro r hr
    obtain ⟨run, words, -, hwords, rfl⟩ := of_mem_controls hr
    simp [Supervisor.control_launches_nothing hwords]
  rw [due_eq, List.filter_append, List.filter_append, hlines, hcontrols, List.nil_append,
    List.append_nil]

theorem length_launch_le : (s.launch config created container).length ≤ 1 := by
  unfold launch
  cases s.run with
  | none => exact Nat.zero_le 1
  | some run =>
    simp only [Option.toList_some, List.flatMap_cons, List.flatMap_nil, List.append_nil]
    split <;> simp

/-- **Launch before control.** What controls the supervised program comes after the call that starts the
supervisor, and goes to the container of the run command. -/
theorem launch_before_controls {front : List Request} {r : Request}
    (due : front ++ [r] <+: s.due config created container)
    (controls : config.supervisor.controlledBy id r = true) :
    (∀ l ∈ s.launch config created container, l ∈ front) ∧
      ∃ run, s.run = some run ∧ (container run).id = id := by
  rw [due_eq] at due
  have hearly : r ∉ s.lines config created container ++ s.launch config created container := by
    intro hr
    rcases List.mem_append.1 hr with hr | hr
    · rw [(of_mem_lines hr).2] at controls
      cases controls
    · obtain ⟨-, run, -, rfl, -⟩ := of_mem_launch hr
      rw [Supervisor.launch_controls_nothing] at controls
      cases controls
  obtain ⟨hplan, hr⟩ := begins_with_of_not_mem due hearly
  refine ⟨fun l hl => hplan.subset (List.mem_append_right _ hl), ?_⟩
  obtain ⟨run, words, hrun, -, rfl⟩ := of_mem_controls hr
  refine ⟨run, hrun, ?_⟩
  rcases Bool.or_eq_true_iff.1 controls with h | h <;> exact (Request.runs_exec.1 h).1

end CommandSelection

end DevfilePush
