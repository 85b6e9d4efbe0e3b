import DevfilePush.Proofs.Command.Supervision
import DevfilePush.Proofs.Push.Beginning
import DevfilePush.Proofs.Push.Stopping

/-!
# How often the supervisor is started

A push that has made a container starts the supervisor in the container of its run command before it
controls anything there, and no other push starts it. So the supervisor of a container is started by the
push that made the container, and once more by every later push that makes another container of the same
component, whether or not the supervisor runs already.

## Main definitions

* `Supervisor.StartedOnce`: the supervisor of a container has been started exactly once.
* `Round.Creates`: a push has made a container.

## Main statements

* `Push.launched_once`, `Push.launched_by`, `Push.launched_before`: what one push does.
* `supervisor_started`: what becomes of a container over any pushes.
* `not_always_started_once`: a container that is made next to it starts the supervisor a second time.
-/

namespace DevfilePush

namespace Supervisor

variable (s : Supervisor)

/-- Whether it is a call that starts the supervisor in the container of an id. -/
def launched (id : String) (x : Happening) : Bool := x.call?.any (s.launchedBy id)

/-- Whether it is a call that controls what is supervised in the container of an id. -/
def controlled (id : String) (x : Happening) : Bool := x.call?.any (s.controlledBy id)

/-- Whether the supervisor is what a container runs by itself: its path is the first word of the
container's command line. -/
def isEntrypointOf (c : ListedContainer) : Bool :=
  c.command.toList.takeWhile (· ≠ ' ') = s.binaryPath.toList

/-- The supervisor of a container has been started exactly once: by the container itself, or by a call,
which has ended with success. -/
def StartedOnce (c : ListedContainer) (happened : List Happening) : Prop :=
  if s.isEntrypointOf c then happened.filter (s.launched c.id) = []
  else ∃ attach, happened.filter (s.launched c.id) =
    [.answered (.exec c.id s.daemonWords attach) (.reply (0 : Int32))]

variable {s}

/-- A container that begins with the supervisor counts as one that runs it. -/
theorem runsIn_of_isEntrypointOf {c : ListedContainer} (h : s.isEntrypointOf c = true) :
    s.runsIn c = true := by
  have hfirst : c.command.toList.takeWhile (· ≠ ' ') = s.binaryPath.toList := of_decide_eq_true h
  rw [runsIn_iff, ← hfirst]
  exact (List.takeWhile_prefix _).isInfix

end Supervisor

namespace Happening

/-- What is picked out of a trace by a kind of calls that execute words is as much as is picked out of
these calls. -/
theorem length_filter_call? {q : Request → Bool} (hq : ∀ r, q r = true → r.executes = true)
    (trace : List Happening) :
    (trace.filter fun x => x.call?.any q).length = ((executions trace).filter q).length := by
  induction trace with
  | nil => rfl
  | cons x trace ih =>
    cases x with
    | logged event => exact ih
    | answered request answer =>
      have hone : executions [answered request answer] = [request].filter (·.executes) := rfl
      rw [← List.singleton_append, List.filter_append, executions_append, List.filter_append,
        List.length_append, List.length_append, ih, hone]
      by_cases hrequest : q request = true
      · simp [call?, hrequest, hq request hrequest]
      · by_cases hexecutes : request.executes <;> simp [call?, hrequest, hexecutes]

/-- A call of a kind that executes words is one of these calls. -/
theorem mem_executions {q : Request → Bool} (hq : ∀ r, q r = true → r.executes = true)
    {trace : List Happening} {x : Happening} (hx : x ∈ trace) (h : x.call?.any q = true) :
    ∃ r ∈ executions trace, q r = true ∧ x.call? = some r := by
  obtain ⟨r, hr, hqr⟩ := (Option.any_eq_true _ _).1 h
  exact ⟨r, List.mem_filter.2 ⟨List.mem_filterMap.2 ⟨x, hx, hr⟩, hq r hqr⟩, hqr, hr⟩

end Happening

namespace Supervisor

variable {s : Supervisor} {id : String}

theorem executes_of_launchedBy (r : Request) (h : s.launchedBy id r = true) : r.executes = true := by
  obtain ⟨attach, rfl⟩ := Request.runs_iff.1 h
  rfl

theorem launched_daemonWords {attach : Bool} {answer : Answer Int32} :
    s.launched id (.answered (.exec id s.daemonWords attach) answer) = true := by
  simp [launched, Happening.call?, launchedBy]

theorem executes_of_controlledBy (r : Request) (h : s.controlledBy id r = true) :
    r.executes = true := by
  rcases Bool.or_eq_true_iff.1 h with h | h <;> obtain ⟨attach, rfl⟩ := Request.runs_iff.1 h <;> rfl

end Supervisor

namespace Push

variable {p : Push} {config : ValidConfig} {listing : UrlListing} {engine : Conduct}
  {before after : Holdings} {trace front later : List Happening} {x : Happening}
  {verdict : Except PushError PushReport} {id : String}

/-- A push starts the supervisor of a container at most once. -/
theorem launched_once (honest : engine.Honest) (keepsIds : engine.KeepsIds) (ids : before.DistinctIds)
    (run : (p.script config listing).Runs engine before trace verdict after) (id : String) :
    (trace.filter (config.config.supervisor.launched id)).length ≤ 1 := by
  have hlength : (trace.filter (config.config.supervisor.launched id)).length =
      ((Happening.executions trace).filter (config.config.supervisor.launchedBy id)).length :=
    Happening.length_filter_call? Supervisor.executes_of_launchedBy trace
  rw [hlength]
  rcases executes_beginning honest keepsIds ids run with hnone | ⟨created, container, -, hbegins, -⟩
  · rw [hnone]
    exact Nat.zero_le 1
  · have hdue := (hbegins.filter (config.config.supervisor.launchedBy id)).length_le
    rw [CommandSelection.filter_launchedBy_due] at hdue
    exact hdue.trans (List.length_filter_le _ _ |>.trans CommandSelection.length_launch_le)

/-- Only a push that has made a container starts the supervisor, in a container of its own component that
does not run it by itself. -/
theorem launched_by (honest : engine.Honest) (keepsIds : engine.KeepsIds) (ids : before.DistinctIds)
    (run : (p.script config listing).Runs engine before trace verdict after) (hx : x ∈ trace)
    (launched : config.config.supervisor.launched id x = true) :
    p.Makes before after ∧ ∃ aliasName, ∃ r ∈ after.ofAlias p.component aliasName,
      r.live.id = id ∧ config.config.supervisor.runsIn r.live = false := by
  obtain ⟨l, hl, hlaunch, -⟩ := Happening.mem_executions Supervisor.executes_of_launchedBy hx launched
  rcases executes_beginning honest keepsIds ids run with
    hnone | ⟨created, container, hmakes, hbegins, htargets⟩
  · rw [hnone] at hl
    cases hl
  · have hdue : l ∈ (p.commands.launch config.config created container).filter
        (config.config.supervisor.launchedBy id) := by
      rw [← CommandSelection.filter_launchedBy_due]
      exact List.mem_filter.2 ⟨hbegins.subset hl, hlaunch⟩
    obtain ⟨hcreated, command, hcommand, rfl, hruns⟩ :=
      CommandSelection.of_mem_launch (List.mem_of_mem_filter hdue)
    obtain ⟨-, r, hr, hlive⟩ := htargets _ (CommandSelection.mem_commands_of_run hcommand)
    refine ⟨hmakes.1 hcreated, _, r, hr, ?_, ?_⟩
    · rw [hlive]
      exact (Request.runs_exec.1 hlaunch).1
    · rw [hlive]
      exact hruns

/-- What a push controls is in the container of a declared alias; and if it has made a container, and that
one does not run the supervisor by itself, it has started the supervisor there before. -/
theorem launched_before (honest : engine.Honest) (keepsIds : engine.KeepsIds) (ids : before.DistinctIds)
    (run : (p.script config listing).Runs engine before (front ++ x :: later) verdict after)
    (controlled : config.config.supervisor.controlled id x = true) :
    ∃ c ∈ p.components, ∃ r ∈ after.ofAlias p.component c.aliasName, r.live.id = id ∧
      (p.Makes before after → config.config.supervisor.runsIn r.live = false →
        ∃ attach, .answered (.exec id config.config.supervisor.daemonWords attach)
          (.reply (0 : Int32)) ∈ front) := by
  obtain ⟨l, hl, hcontrol, hcall⟩ := Happening.mem_executions Supervisor.executes_of_controlledBy
    (List.mem_singleton_self x) controlled
  have hexecutions : Happening.executions (front ++ x :: later) =
      Happening.executions front ++ [l] ++ Happening.executions later := by
    have hone : Happening.executions [x] = [l] := by
      simp [Happening.executions, hcall, Supervisor.executes_of_controlledBy l hcontrol]
    rw [← List.singleton_append, Happening.executions_append, Happening.executions_append, hone,
      List.append_assoc]
  rcases executes_beginning honest keepsIds ids run with
    hnone | ⟨created, container, hmakes, hbegins, htargets⟩
  · rw [hexecutions] at hnone
    simp at hnone
  rw [hexecutions] at hbegins
  obtain ⟨hlaunch, command, hcommand, hid⟩ :=
    CommandSelection.launch_before_controls ((List.prefix_append _ _).trans hbegins) hcontrol
  obtain ⟨⟨c, hc, halias⟩, r, hr, hlive⟩ := htargets _ (CommandSelection.mem_commands_of_run hcommand)
  refine ⟨c, hc, r, halias ▸ hr, by rw [hlive, hid], fun makes hruns => ?_⟩
  have hmade : Request.exec id config.config.supervisor.daemonWords config.config.showOutput ∈
      Happening.executions front := by
    apply hlaunch
    rw [CommandSelection.launch, hcommand]
    rw [hlive] at hruns
    simp [hmakes.2 makes, hruns, hid]
  -- the call that starts the supervisor was not the last one, so it did not fail
  obtain ⟨y, hy, hycall⟩ := List.mem_filterMap.1 (List.mem_of_mem_filter hmade)
  cases y with
  | logged event => cases hycall
  | answered request answer =>
    obtain rfl := Option.some.inj hycall
    refine ⟨config.config.showOutput, ?_⟩
    by_contra hfails
    obtain ⟨earlier, between, rfl⟩ := List.append_of_mem hy
    have hlast : Happening.calls (between ++ x :: later) = [] := by
      rw [List.append_assoc, List.cons_append] at run
      refine (script_stops.last run ?_).1
      intro hanswer
      apply hfails
      rw [← hanswer]
      exact hy
    cases x with
    | logged event => cases hcall
    | answered request answer => simp at hlast

end Push

/-! ## Pushes of any components -/

/-- A push has made this container. -/
def Round.Creates (round : Round) (r : Running) : Prop :=
  r ∈ round.after.containers ∧ r ∉ round.before.containers

/-- What has happened in pushes, the latest of which comes first. -/
def Round.happened (rounds : List Round) : List Happening := rounds.reverse.flatMap (·.happenings)

theorem Round.happened_append_singleton (newer : List Round) (maker : Round) :
    happened (newer ++ [maker]) = maker.happenings ++ happened newer := by
  simp [happened]

namespace Chronicle

variable {engine : Conduct} {config : ValidConfig} {start last : Holdings} {rounds : List Round}

theorem distinctIds (chronicle : Chronicle engine config start rounds last)
    (keepsIds : engine.KeepsIds) (ids : start.DistinctIds) : last.DistinctIds := by
  induction chronicle with
  | start => exact ids
  | push past run ih => exact run.distinctIds keepsIds ih

/-- Each push is a run that began where ids were distinct. -/
theorem runs_of_mem (chronicle : Chronicle engine config start rounds last)
    (keepsIds : engine.KeepsIds) (ids : start.DistinctIds) {round : Round} (h : round ∈ rounds) :
    round.before.DistinctIds ∧ (round.push.script config round.listing).Runs engine round.before
      round.happenings round.verdict round.after := by
  induction chronicle with
  | start => cases h
  | push past run ih =>
    rcases List.mem_cons.1 h with rfl | h
    · exact ⟨past.distinctIds keepsIds ids, run⟩
    · exact ih h

end Chronicle

/-- What is picked out of a list at most once is all that is picked out. -/
theorem filter_eq_singleton {α : Type} {q : α → Bool} {xs : List α} {x : α}
    (once : (xs.filter q).length ≤ 1) (hx : x ∈ xs) (hq : q x = true) : xs.filter q = [x] := by
  have hmem : x ∈ xs.filter q := List.mem_filter.2 ⟨hx, hq⟩
  obtain ⟨y, hy⟩ := List.length_eq_one_iff.1 (Nat.le_antisymm once (List.length_pos_of_mem hmem))
  rw [hy] at hmem ⊢
  rw [List.mem_singleton.1 hmem]

/-- A member of two lists one after the other is in the first one, or all of that comes before it. -/
theorem append_eq_split {α : Type} {xs ys front later : List α} {x : α}
    (h : xs ++ ys = front ++ x :: later) :
    (∃ rest, xs = front ++ x :: rest) ∨ ∃ rest, front = xs ++ rest ∧ rest <+: ys := by
  rcases List.append_eq_append_iff.1 h with ⟨rest, rfl, rfl⟩ | ⟨rest, rfl, hrest⟩
  · exact .inr ⟨rest, rfl, List.prefix_append _ _⟩
  · cases rest with
    | nil => exact .inr ⟨[], by simp, List.nil_prefix⟩
    | cons y rest =>
      obtain ⟨rfl, -⟩ := List.cons.inj hrest
      exact .inl ⟨rest, rfl⟩

namespace Round

variable {engine : Conduct} {config : ValidConfig} {round : Round} {r : Running}
  {front later : List Happening} {x : Happening}

section

variable (honest : engine.Honest) (keepsIds : engine.KeepsIds) (ids : round.before.DistinctIds)
  (run : (round.push.script config round.listing).Runs engine round.before round.happenings
    round.verdict round.after) (held : r ∈ round.after.containers)

include honest keepsIds ids run held

/-- Whoever starts the supervisor of a container has made one, and the container is of its component and
does not run the supervisor by itself. -/
theorem of_launched (hx : x ∈ round.happenings)
    (launched : config.config.supervisor.launched r.live.id x = true) :
    round.Makes ∧ r.live.labels.get? Conventions.componentLabel = some round.push.component ∧
      config.config.supervisor.runsIn r.live = false := by
  obtain ⟨makes, aliasName, other, hother, hid, hruns⟩ :=
    Push.launched_by honest keepsIds ids run hx launched
  obtain ⟨hheld, hcomponent, -⟩ := Holdings.mem_ofAlias.1 hother
  obtain rfl := (run.distinctIds keepsIds ids).eq_of_id hheld held hid
  exact ⟨makes, hcomponent, hruns⟩

/-- Whoever controls what is supervised in a container has declared it; and if it has made a container,
and this one does not run the supervisor by itself, it has started the supervisor here before. -/
theorem of_controlled (split : round.happenings = front ++ x :: later)
    (controlled : config.config.supervisor.controlled r.live.id x = true) :
    (∃ c ∈ round.push.components, r ∈ round.after.ofAlias round.push.component c.aliasName) ∧
      (round.Makes → config.config.supervisor.runsIn r.live = false →
        ∃ attach, .answered (.exec r.live.id config.config.supervisor.daemonWords attach)
          (.reply (0 : Int32)) ∈ front) := by
  rw [split] at run
  obtain ⟨c, hc, other, hother, hid, hlaunched⟩ :=
    Push.launched_before honest keepsIds ids run controlled
  obtain rfl := (run.distinctIds keepsIds ids).eq_of_id (Holdings.mem_ofAlias.1 hother).1 held hid
  exact ⟨⟨c, hc, hother⟩, hlaunched⟩

/-- Where a push that has made a container controls what is supervised in one that does not run the
supervisor by itself, exactly one call has started the supervisor there, with success. -/
theorem started_of_controlled (makes : round.Makes)
    (hruns : config.config.supervisor.runsIn r.live = false)
    (split : round.happenings = front ++ x :: later)
    (controlled : config.config.supervisor.controlled r.live.id x = true) :
    ∃ attach, .answered (.exec r.live.id config.config.supervisor.daemonWords attach)
          (.reply (0 : Int32)) ∈ front ∧
      round.happenings.filter (config.config.supervisor.launched r.live.id) =
        [.answered (.exec r.live.id config.config.supervisor.daemonWords attach)
          (.reply (0 : Int32))] := by
  obtain ⟨-, hlaunched⟩ := of_controlled honest keepsIds ids run held split controlled
  obtain ⟨attach, hfront⟩ := hlaunched makes hruns
  refine ⟨attach, hfront, filter_eq_singleton
    (Push.launched_once honest keepsIds ids run r.live.id) ?_ ?_⟩
  · rw [split]
    exact List.mem_append_left _ hfront
  · exact Supervisor.launched_daemonWords

/-- Where such a push is followed by happenings that do not start the supervisor, it has been started
exactly once whenever something is controlled; a command line that only mentions the supervisor is left
aside. -/
theorem startedOnce_since (makes : round.Makes)
    (hcontrols : ∃ y ∈ round.happenings, config.config.supervisor.controlled r.live.id y = true)
    (mentions : config.config.supervisor.runsIn r.live = true →
      config.config.supervisor.isEntrypointOf r.live = true)
    {since : List Happening}
    (quiet : since.filter (config.config.supervisor.launched r.live.id) = [])
    (split : round.happenings ++ since = front ++ x :: later)
    (controlled : config.config.supervisor.controlled r.live.id x = true) :
    config.config.supervisor.StartedOnce r.live front := by
  unfold Supervisor.StartedOnce
  by_cases hentry : config.config.supervisor.isEntrypointOf r.live = true
  · -- nothing starts the supervisor in a container whose entrypoint it is
    rw [if_pos hentry, List.filter_eq_nil_iff]
    intro z hz launched
    have hz' : z ∈ round.happenings ++ since := split ▸ List.mem_append_left _ hz
    rcases List.mem_append.1 hz' with hz' | hz'
    · obtain ⟨-, -, hruns⟩ := of_launched honest keepsIds ids run held hz' launched
      rw [Supervisor.runsIn_of_isEntrypointOf hentry] at hruns
      cases hruns
    · exact List.filter_eq_nil_iff.1 quiet z hz' launched
  · rw [if_neg hentry]
    have hruns : config.config.supervisor.runsIn r.live = false :=
      Bool.eq_false_iff.2 (mt mentions hentry)
    rcases append_eq_split split with ⟨rest, hround⟩ | ⟨rest, rfl, hrest⟩
    · obtain ⟨attach, hfront, hmade⟩ :=
        started_of_controlled honest keepsIds ids run held makes hruns hround controlled
      have honce : (front.filter (config.config.supervisor.launched r.live.id)).length ≤ 1 := by
        refine le_trans ?_ (Push.launched_once honest keepsIds ids run r.live.id)
        rw [hround, List.filter_append, List.length_append]
        exact Nat.le_add_right _ _
      exact ⟨attach, filter_eq_singleton honce hfront Supervisor.launched_daemonWords⟩
    · obtain ⟨y, hy, hcontrol⟩ := hcontrols
      obtain ⟨earlier, between, hround⟩ := List.append_of_mem hy
      obtain ⟨attach, -, hmade⟩ :=
        started_of_controlled honest keepsIds ids run held makes hruns hround hcontrol
      have hnone : rest.filter (config.config.supervisor.launched r.live.id) = [] := by
        have hsub := hrest.filter (config.config.supervisor.launched r.live.id)
        rw [quiet] at hsub
        exact List.prefix_nil.1 hsub
      exact ⟨attach, by rw [List.filter_append, hmade, hnone, List.append_nil]⟩

end

end Round

/-- **The supervisor.** Pushes of any components follow one another, whatever becomes of them, and one of
them makes a container that is there from then on. Each of them starts the supervisor of that container
at most once, only if it has made some container of the same component, and never if the supervisor is
the container's entrypoint. Where such a push controls what the supervisor supervises in that container,
and the command line does not contain the supervisor's path, it has itself started the supervisor before.
So if the push that made the container controls it, and no later one makes another container of its
component, then whenever it is controlled its supervisor has been started exactly once since it was
made; a command line that only mentions the supervisor is left aside. -/
theorem supervisor_started {engine : Conduct} {config : ValidConfig} {start last : Holdings}
    {rounds newer older : List Round} {maker : Round} {r : Running} (honest : engine.Honest)
    (keepsIds : engine.KeepsIds) (ids : start.DistinctIds)
    (chronicle : Chronicle engine config start rounds last) (split : rounds = newer ++ maker :: older)
    (creates : maker.Creates r) (stays : ∀ round ∈ newer, r ∈ round.after.containers) :
    (∀ round ∈ newer ++ [maker],
      (round.happenings.filter (config.config.supervisor.launched r.live.id)).length ≤ 1 ∧
      ∀ x ∈ round.happenings, config.config.supervisor.launched r.live.id x = true →
        round.Makes ∧ r.live.labels.get? Conventions.componentLabel = some round.push.component ∧
          config.config.supervisor.isEntrypointOf r.live = false) ∧
    (∀ round ∈ newer ++ [maker], round.Makes → config.config.supervisor.runsIn r.live = false →
      ∀ front x later, round.happenings = front ++ x :: later →
        config.config.supervisor.controlled r.live.id x = true →
          ∃ attach, .answered (.exec r.live.id config.config.supervisor.daemonWords attach)
            (.reply (0 : Int32)) ∈ front) ∧
    ((∀ round ∈ newer, round.push.component = maker.push.component → ¬ round.Makes) →
      (∃ x ∈ maker.happenings, config.config.supervisor.controlled r.live.id x = true) →
      (config.config.supervisor.runsIn r.live = true →
        config.config.supervisor.isEntrypointOf r.live = true) →
      ∀ front x later, Round.happened (newer ++ [maker]) = front ++ x :: later →
        config.config.supervisor.controlled r.live.id x = true →
          config.config.supervisor.StartedOnce r.live front) := by
  have hrun : ∀ round ∈ newer ++ [maker], round.before.DistinctIds ∧
      (round.push.script config round.listing).Runs engine round.before round.happenings round.verdict
        round.after ∧ r ∈ round.after.containers := by
    intro round hround
    have hmem : round ∈ rounds := by
      rw [split]
      rcases List.mem_append.1 hround with h | h
      · exact List.mem_append_left _ h
      · exact List.mem_append_right _ (List.mem_singleton.1 h ▸ List.mem_cons_self)
    obtain ⟨hids, run⟩ := chronicle.runs_of_mem keepsIds ids hmem
    refine ⟨hids, run, ?_⟩
    rcases List.mem_append.1 hround with h | h
    · exact stays round h
    · exact List.mem_singleton.1 h ▸ creates.1
  refine ⟨fun round hround => ?_, fun round hround => ?_, ?_⟩
  · obtain ⟨hids, run, held⟩ := hrun round hround
    refine ⟨Push.launched_once honest keepsIds hids run _, fun x hx launched => ?_⟩
    obtain ⟨makes, hcomponent, hruns⟩ := Round.of_launched honest keepsIds hids run held hx launched
    refine ⟨makes, hcomponent, ?_⟩
    by_contra hentry
    rw [Supervisor.runsIn_of_isEntrypointOf (Bool.of_not_eq_false hentry)] at hruns
    cases hruns
  · obtain ⟨hids, run, held⟩ := hrun round hround
    intro makes hruns front x later hsplit controlled
    exact (Round.of_controlled honest keepsIds hids run held hsplit controlled).2 makes hruns
  · intro alone hcontrols hmentions front x later hsplit controlled
    rw [Round.happened_append_singleton] at hsplit
    obtain ⟨hids, run, held⟩ := hrun maker (by simp)
    obtain ⟨y, hy, hcontrol⟩ := hcontrols
    obtain ⟨earlier, between, hmaker⟩ := List.append_of_mem hy
    obtain ⟨⟨c, hc, hr⟩, -⟩ := Round.of_controlled honest keepsIds hids run held hmaker hcontrol
    have makes : maker.Makes := ⟨c, hc, r, hr, creates.2⟩
    have hquiet : (Round.happened newer).filter (config.config.supervisor.launched r.live.id) = [] := by
      rw [List.filter_eq_nil_iff]
      intro z hz launched
      obtain ⟨round, hround, hz⟩ := List.mem_flatMap.1 hz
      have hnewer : round ∈ newer := List.mem_reverse.1 hround
      obtain ⟨hids', run', held'⟩ := hrun round (List.mem_append_left _ hnewer)
      obtain ⟨makes', hcomponent, -⟩ := Round.of_launched honest keepsIds hids' run' held' hz launched
      rw [(Holdings.mem_ofAlias.1 hr).2.1] at hcomponent
      exact alone round hnewer (Option.some.inj hcomponent).symm makes'
    exact Round.startedOnce_since honest keepsIds hids run held makes ⟨y, hy, hcontrol⟩ hmentions hquiet
      hsplit controlled

/-! ## A container beside another one -/

open Push (sampleListing)

/-- A push of two containers, the first of which has an entrypoint of its own and a run command. -/
def sampleServing (image : String) : Push where
  component := "shop"
  directory := "/shop"
  components :=
    [{ Component.ofImage "web" "nginx" with command := ["sleep", "infinity"] },
      Component.ofImage "db" image]
  commands := ⟨none, none, some ⟨"serve", "web", "./serve", none, .run, true, none⟩⟩

/-- The push on an engine that holds nothing. -/
def sampleFirst : Round := .follow (sampleServing "postgres:16") sampleListing .empty []

/-- The push after that one, with an image for the second container. -/
def sampleSecond (image : String) : Round :=
  .follow (sampleServing image) sampleListing
    (((sampleServing "postgres:16").script .standard sampleListing).follow .empty []).engine []

/-- The first container as the engine lists it. -/
def sampleWeb : ListedContainer := ⟨"container-1", "sleep infinity", Labels.ofContainer "shop" "web"⟩

/-- A course against the engine in memory continues a chronicle. -/
theorem Chronicle.follow {start : Holdings} {earlier : List Round} {e : MemoryEngine}
    (numbered : e.Numbered) (past : Chronicle MemoryEngine.faulty .standard start earlier e.holdings)
    (p : Push) (listing : UrlListing) (fates : List Fate) :
    Chronicle MemoryEngine.faulty .standard start (.follow p listing e fates :: earlier)
      ((p.script .standard listing).follow e fates).engine.holdings := by
  have run : (p.script .standard listing).Runs MemoryEngine.faulty e.holdings
      ((p.script .standard listing).follow e fates).happenings
      ((p.script .standard listing).follow e fates).verdict
      ((p.script .standard listing).follow e fates).engine.holdings :=
    MemoryEngine.runs_follow_faulty numbered rfl
  exact .push past run

theorem chronicle_sample (image : String) : ∃ last,
    Chronicle MemoryEngine.faulty .standard ⟨[], []⟩ ([sampleSecond image] ++ sampleFirst :: []) last :=
  ⟨_, .follow (MemoryEngine.numbered_empty.follow _ _)
    (.follow MemoryEngine.numbered_empty .start (sampleServing "postgres:16") sampleListing [])
    (sampleServing image) sampleListing []⟩

/-- The first push makes the first container, and the second push leaves it. -/
theorem creates_sample (image : String) (stays : ∃ r ∈ (sampleSecond image).after.containers,
      r ∈ sampleFirst.after.containers ∧ r.live = sampleWeb) :
    ∃ r, r.live = sampleWeb ∧ sampleFirst.Creates r ∧
      ∀ round ∈ [sampleSecond image], r ∈ round.after.containers := by
  obtain ⟨r, hsecond, hfirst, hlive⟩ := stays
  exact ⟨r, hlive, ⟨hfirst, List.not_mem_nil⟩, by simpa using hsecond⟩

/-- If nothing has changed, the second push leaves the supervisor of the first container as it is, which
has been started exactly once whenever something is controlled. -/
theorem supervisor_started_sample : (∃ x ∈ (sampleSecond "postgres:16").happenings,
      Supervisor.standard.controlled sampleWeb.id x = true) ∧
    ∀ front x later, Round.happened ([sampleSecond "postgres:16"] ++ [sampleFirst]) =
        front ++ x :: later → Supervisor.standard.controlled sampleWeb.id x = true →
      Supervisor.standard.StartedOnce sampleWeb front := by
  obtain ⟨last, chronicle⟩ := chronicle_sample "postgres:16"
  obtain ⟨r, hlive, creates, stays⟩ := creates_sample "postgres:16"
    ⟨_, List.mem_cons_self, List.mem_cons_self, rfl⟩
  obtain ⟨-, -, honce⟩ := supervisor_started (MemoryEngine.honest_conduct _)
    (MemoryEngine.keepsIds_conduct _) (by decide) chronicle rfl creates stays
  have hunchanged : ¬ (sampleSecond "postgres:16").Makes := by
    have hsame : (sampleSecond "postgres:16").after = (sampleSecond "postgres:16").before := by rfl
    rintro ⟨c, -, r', hr', hnew⟩
    rw [hsame] at hr'
    exact hnew (Holdings.mem_ofAlias.1 hr').1
  rw [hlive] at honce
  refine ⟨?_, honce ?_ ?_ ?_⟩
  · exact List.any_eq_true.1 (by rfl)
  · intro round hround _
    rw [List.mem_singleton.1 hround]
    exact hunchanged
  · exact List.any_eq_true.1 (by rfl)
  · intro hruns
    exact absurd hruns (by decide)

/-- Where the second push makes the second container anew, it starts the supervisor of the first one
again, which is there and was started before. -/
theorem not_always_started_once :
    ¬ ∀ {engine : Conduct} {config : ValidConfig} {start last : Holdings}
      {newer older : List Round} {maker : Round} {r : Running},
      engine.Honest → engine.KeepsIds → start.DistinctIds →
      Chronicle engine config start (newer ++ maker :: older) last → maker.Creates r →
      (∀ round ∈ newer, r ∈ round.after.containers) →
      ∀ front x later, Round.happened (newer ++ [maker]) = front ++ x :: later →
        config.config.supervisor.controlled r.live.id x = true →
          config.config.supervisor.StartedOnce r.live front := by
  intro h
  obtain ⟨last, chronicle⟩ := chronicle_sample "postgres:17"
  obtain ⟨r, hlive, creates, stays⟩ := creates_sample "postgres:17"
    ⟨_, List.mem_cons_self, List.mem_cons_self, rfl⟩
  have hstarted := h (MemoryEngine.honest_conduct _) (MemoryEngine.keepsIds_conduct _) (by decide)
    chronicle creates stays
  rw [hlive] at hstarted
  -- the last call starts the run program again
  have hlast : ∃ front x later, Round.happened ([sampleSecond "postgres:17"] ++ [sampleFirst]) =
      front ++ x :: later ∧ Supervisor.standard.controlled sampleWeb.id x = true ∧
      (front.filter (Supervisor.standard.launched sampleWeb.id)).length = 2 := by
    refine ⟨(Round.happened ([sampleSecond "postgres:17"] ++ [sampleFirst])).dropLast.dropLast, _, _,
      by rfl, by rfl, by rfl⟩
  obtain ⟨front, x, later, hsplit, hcontrolled, htwice⟩ := hlast
  obtain ⟨attach, honce⟩ := hstarted front x later hsplit hcontrolled
  have hone : 2 = 1 := htwice.symm.trans (congrArg List.length honce)
  exact absurd hone (by decide)

end DevfilePush
