import DevfilePush.Proofs.Push.Commands
import DevfilePush.Proofs.Push.Initialisation
import DevfilePush.Proofs.Push.Repetition

/-!
# What a push that ends in any way has executed

A push that fails in the middle of its commands has executed the beginning of what is due. What is due is
known before anything is executed, and so is the container of every command, as the containers have been
reconciled by then.

## Main definitions

* `Happening.executions`: the calls of a trace that execute words.

## Main statements

* `CommandSelection.runAll_beginning`: the calls of commands that end in any way.
* `Push.executes_beginning`: what a push that ends in any way has executed.
-/

namespace DevfilePush

/-- The calls of a trace that execute words. -/
def Happening.executions (trace : List Happening) : List Request :=
  (trace.filterMap (·.call?)).filter (·.executes)

theorem Happening.executions_append (a b : List Happening) :
    executions (a ++ b) = executions a ++ executions b := by
  simp [executions]

/-- Where nothing executes words, there are no such calls. -/
theorem Happening.executions_eq_nil {trace : List Happening}
    (h : ∀ r ∈ trace.filterMap (·.call?), r.executes = false) : executions trace = [] := by
  rw [executions, List.filter_eq_nil_iff]
  intro r hr
  simp [h r hr]

variable {ctx : Context} {engine : Conduct} {before after : Holdings} {trace : List Happening}
  {allKept : Bool} {containers : List ListedContainer}

/-- The calls of a command, however it ends, are the first ones that it stands for. -/
theorem Command.run_beginning {command : Command} {group : CommandGroup}
    {verdict : Except PushError (List ActionRecord)}
    (run : (command.run ctx group allKept containers).Runs engine before trace verdict after) :
    trace.filterMap (·.call?) <+: Command.requests ctx allKept containers (group, command) := by
  unfold requests
  cases htarget : command.target ctx containers with
  | ok container =>
    have hrequests := Request.eq_map_words? (run.requests (run_asks htarget))
    rw [hrequests]
    exact List.IsPrefix.map _ (run_executes.beginning run)
  | error e =>
    have hnone : trace.filterMap (·.call?) = [] := by
      unfold Command.run at run
      rw [htarget] at run
      cases hactions : command.actions group allKept with
      | nil =>
        rw [hactions] at run
        obtain ⟨rest, rfl, rfl, -, -⟩ := Script.runs_note_bind.1 run
        rfl
      | cons action rest =>
        rw [hactions] at run
        obtain ⟨rfl, -⟩ := Script.runs_fail.1 run
        rfl
    exact hnone ▸ List.nil_prefix

namespace CommandSelection

/-- The calls of commands, however they end, are the first ones that they stand for. -/
theorem runEach_beginning {commands : List (CommandGroup × Command)}
    {verdict : Except PushError (List ActionRecord)}
    (run : (runEach ctx allKept containers commands).Runs engine before trace verdict after) :
    trace.filterMap (·.call?) <+: commands.flatMap (Command.requests ctx allKept containers) := by
  induction commands generalizing before trace verdict with
  | nil =>
    obtain ⟨rfl, -⟩ := run
    exact List.nil_prefix
  | cons gc rest ih =>
    rw [List.flatMap_cons]
    rcases Script.runs_bind_iff.1 run with ⟨error, -, hfirst⟩ | ⟨first, m, t₁, t₂, hfirst, hrest, rfl⟩
    · exact (Command.run_beginning hfirst).trans (List.prefix_append _ _)
    · obtain ⟨inner, hothers, -⟩ := Script.runs_bind_done.1 hrest
      rw [List.filterMap_append, Command.run_requests hfirst, List.prefix_append_right_inj]
      exact ih hothers

/-- The calls of the commands of a push, however they end, are the first ones that they stand for. -/
theorem runAll_beginning {s : CommandSelection} {verdict : Except PushError CommandReport}
    (run : (runAll ctx s allKept containers).Runs engine before trace verdict after) :
    trace.filterMap (·.call?) <+: s.commands.flatMap (Command.requests ctx allKept containers) := by
  unfold runAll at run
  split at run
  · obtain ⟨rfl, -⟩ := Script.runs_fail.1 run
    exact List.nil_prefix
  · obtain ⟨inner, heach, -⟩ := Script.runs_bind_done.1 run
    exact runEach_beginning heach

end CommandSelection

namespace Push

variable {p : Push} {config : ValidConfig} {listing : UrlListing} {verdict : Except PushError PushReport}

/-- Every command has its container where the containers of a push are settled. -/
theorem Settled.targetD_mem {urls : List UrlRecord} {names : VolumeNames}
    {records : List ContainerRecord} {start settled : Holdings}
    (settles : p.Settled config urls names records start settled) (passed : p.check = .ok ())
    {live : List ListedContainer}
    (listed : live.Perm ((settled.containersWith (Labels.ofComponent p.component)).map (·.live))) :
    ∀ gc ∈ p.commands.commands, ∃ r ∈ settled.ofAlias p.component gc.2.component,
      r.live = Command.targetD (p.context config) live gc.2 := by
  intro gc hgc
  obtain ⟨container, htarget⟩ := settles.targets passed listed gc hgc
  obtain ⟨hD, hmem, halias⟩ := Command.targetD_mem htarget
  obtain ⟨r, hr, rfl⟩ := List.mem_map.1 (listed.mem_iff.1 hmem)
  rw [Holdings.containersWith, List.mem_filter, Labels.ofComponent_selects_iff] at hr
  exact ⟨r, Holdings.mem_ofAlias.2 ⟨hr.1, hr.2, halias⟩, hD.symm⟩

/-- The calls of the second part of a push that execute words are the first ones of those that are due,
each in the container that is labelled with the alias of its command. -/
theorem execution_beginning (honest : engine.Honest) (passed : p.check = .ok ())
    {urls : List UrlRecord} {names : VolumeNames} {records : List ContainerRecord}
    {start settled : Holdings} (settles : p.Settled config urls names records start settled)
    {report : ContainerReport}
    (run : (p.execution config report).Runs engine settled trace verdict after) :
    ∃ container : Command → ListedContainer,
      Happening.executions trace <+: p.commands.due config.config (!report.allKept) container ∧
      ∀ gc ∈ p.commands.commands, ∃ r ∈ settled.ofAlias p.component gc.2.component,
        r.live = container gc.2 := by
  rcases Script.runs_bind_iff.1 run with ⟨error, -, hlist⟩ | ⟨live, m, t₁, t₂, hlist, hrest, rfl⟩
  · refine ⟨_, ?_, settles.targetD_mem passed (.refl _)⟩
    have hnone : Happening.executions trace = [] := by
      rcases Script.runs_ask_cases hlist with ⟨_, hok, -⟩ | ⟨answer, _, -, -, -, rfl⟩
      · cases hok
      · rfl
    exact hnone ▸ List.nil_prefix
  · obtain ⟨met, rfl⟩ := Script.runs_ask_ok.1 hlist
    obtain ⟨listed, rfl⟩ := honest.granted met
    refine ⟨_, ?_, settles.targetD_mem passed listed⟩
    have hcalls : t₂.filterMap (·.call?) <+: p.commands.commands.flatMap
        (Command.requests (p.context config) report.allKept live) := by
      rcases Script.runs_bind_iff.1 hrest with ⟨_, -, hcommands⟩ | ⟨_, m, t₃, t₄, hcommands, hlast, rfl⟩
      · exact CommandSelection.runAll_beginning hcommands
      · obtain ⟨rest, rfl, rfl, -, -⟩ := Script.runs_note_bind.1 hlast
        rw [List.filterMap_append]
        exact (List.append_nil (t₃.filterMap (·.call?))).symm ▸ CommandSelection.runAll_beginning hcommands
    have hdue : p.commands.commands.flatMap (Command.requests (p.context config) report.allKept live) =
        p.commands.due config.config (!report.allKept) (Command.targetD (p.context config) live) := by
      have hrequests := @CommandSelection.flatMap_requests _ live p.commands (!report.allKept)
        fun gc hgc _ => settles.targets passed listed gc hgc
      rwa [Bool.not_not] at hrequests
    rw [hdue] at hcalls
    -- the listing executes nothing, and all that is due does
    change (t₂.filterMap (·.call?)).filter (·.executes) <+: _
    rw [List.filter_eq_self.2 fun r hr => executes_of_mem_due r (hcalls.subset hr)]
    exact hcalls

/-- **A beginning.** A push that ends in any way has executed nothing, or it has executed the beginning of
what is due: the commands' words, among them the init command's if it has made a container, each in the
container that is there for the alias of its command. -/
theorem executes_beginning (honest : engine.Honest) (keepsIds : engine.KeepsIds)
    (ids : before.DistinctIds)
    (run : (p.script config listing).Runs engine before trace verdict after) :
    Happening.executions trace = [] ∨
      ∃ (created : Bool) (container : Command → ListedContainer),
        (created = true ↔ p.Makes before after) ∧
        Happening.executions trace <+: p.commands.due config.config created container ∧
        ∀ gc ∈ p.commands.commands, (∃ c ∈ p.components, c.aliasName = gc.2.component) ∧
          ∃ r ∈ after.ofAlias p.component gc.2.component, r.live = container gc.2 := by
  rcases Script.runs_bind_iff.1 run with ⟨error, -, hcheck⟩ | ⟨⟨⟩, m₁, t₁, t₂, hcheck, hsession, rfl⟩
  · obtain ⟨rfl, -⟩ := Script.runs_ofExcept.1 hcheck
    exact .inl rfl
  obtain ⟨rfl, hpassed, rfl⟩ := Script.runs_ofExcept.1 hcheck
  rw [List.nil_append]
  rcases Script.runs_bind_iff.1 hsession with
    ⟨error, -, hfirst⟩ | ⟨report, settled, front, own, hfirst, hsecond, rfl⟩
  · exact .inl (Happening.executions_eq_nil (hfirst.requests reconciliation_asks))
  · obtain ⟨urls, names, -, -, -, -, settles⟩ := reconciliation_ok honest keepsIds ids hfirst
    obtain ⟨container, hbegins, htargets⟩ := execution_beginning honest hpassed.symm settles hsecond
    right
    refine ⟨!report.allKept, container, ?_, ?_, fun gc hgc => ⟨?_, ?_⟩⟩
    · rw [execution_unchanged honest hsecond, makes_iff honest keepsIds ids hfirst, Bool.not_eq_true']
    · rw [Happening.executions_append,
        Happening.executions_eq_nil (hfirst.requests reconciliation_asks)]
      exact hbegins
    · exact CommandSelection.checkTargets_ok_iff.1 (check_ok_iff.1 hpassed.symm).2.2 gc hgc
    · rw [execution_unchanged honest hsecond]
      exact htargets gc hgc

end Push

end DevfilePush
