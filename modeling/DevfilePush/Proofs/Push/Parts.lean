import DevfilePush.Proofs.Engine.Closed
import DevfilePush.Proofs.Engine.Looking
import DevfilePush.Push

/-!
# The calls that a push is made of

Resolving volumes makes calls on volumes, reconciling containers makes calls that execute nothing and
create desired definitions only, and a command executes words in its container. A property that
sequencing keeps, and that holds of these calls, holds of these parts of a push.

## Main definitions

* `Request.WorksFor`: calls that bring a container to its desired definition.

## Main statements

* `Script.Plain.resolveVolumes`, `Script.Closed.realize`: volumes and containers.
* `Script.Composes.actEach`, `Script.Plain.runAll`: the actions of a command, and all commands.
-/

namespace DevfilePush

/-- Whether a call may serve to bring a container to its desired definition: it executes nothing, and
what it creates is that definition. -/
def Request.WorksFor (desired : Definition) : Request → Prop
  | .createContainer d => d = desired
  | .exec .. => False
  | .listVolumes _ | .createVolume .. | .pullImage _ | .removeContainer _ | .listContainers _
  | .inspectContainer _ => True

/-- What serves to bring a container to its definition executes nothing. -/
theorem Request.executes_of_worksFor {desired : Definition} {r : Request} (h : r.WorksFor desired) :
    r.executes = false := by
  cases r <;> first | rfl | exact h.elim

namespace Script

variable {P : ∀ α : Type, Script α → Prop} {ctx : Context}

namespace Plain

/-! ## Volumes -/

section Volumes

variable (plain : Plain P)
  (hask : ∀ r : Request, r.onVolumes = true → P _ (ask ctx.component ctx.config.callDeadline r))

include plain hask

theorem resolveVolume (role : VolumeRole) : P _ (resolveVolume ctx role) := by
  have hlook : P _ (lookupVolume ctx role) := plain.bind (hask _ rfl) fun _ => plain.done _
  refine plain.bind hlook fun looked => ?_
  cases looked with
  | found volume => exact plain.bind (plain.note _ rfl) fun _ => plain.done _
  | conflict volumes => exact plain.fail _
  | missing =>
    exact plain.bind (hask _ rfl) fun _ => plain.bind (plain.note _ rfl) fun _ => plain.done _

theorem resolveStorage (resolved : SortedMap String String) (names : List String) :
    P _ (resolveStorage ctx resolved names) := by
  induction names generalizing resolved with
  | nil => exact plain.done _
  | cons name rest ih => exact plain.bind (plain.resolveVolume hask (.storage name)) fun _ => ih _

theorem resolveVolumes (components : List Component) (needsSupervisor : Bool) :
    P _ (resolveVolumes ctx components needsSupervisor) := by
  have hsupervisor : P _ (resolveSupervisor ctx needsSupervisor) := by
    cases needsSupervisor with
    | false => exact plain.done _
    | true => exact plain.bind (plain.resolveVolume hask .supervisor) fun _ => plain.done _
  exact plain.bind (plain.resolveVolume hask .projectSource) fun _ =>
    plain.bind hsupervisor fun _ =>
      plain.bind (plain.resolveStorage hask ∅ _) fun _ => plain.done _

end Volumes

end Plain

namespace Closed

/-! ## Containers -/

section Containers

variable {b : Blueprint} {c : Component} {desired : Definition} (closed : Closed P)

include closed

section Desired

variable (hask : ∀ r : Request, r.WorksFor desired → P _ (ask ctx.component ctx.config.callDeadline r))

include hask

theorem startContainer : P _ (startContainer ctx c desired) :=
  closed.bind (closed.step (hask (.pullImage c.image) trivial) _) fun _ =>
    closed.bind (closed.step (hask (.createContainer desired) rfl) _) fun _ =>
      closed.bind (closed.note _) fun _ => closed.done _

theorem keepOrReplace (live : ListedContainer) : P _ (keepOrReplace ctx c desired live) := by
  refine closed.bind (hask (.inspectContainer live.id) trivial) fun actual => ?_
  have hupdate : P _ (Script.step ("Updating the component " ++ c.aliasName)
      (ask ctx.component ctx.config.callDeadline (.removeContainer live.id) >>=
        fun _ => DevfilePush.startContainer ctx c desired)) :=
    closed.step (closed.bind (hask (.removeContainer live.id) trivial) fun _ =>
      closed.startContainer hask) _
  by_cases hagrees : (desired.differences actual).isEmpty = true
  · simp only [hagrees, if_true]
    exact closed.bind (closed.note _) fun _ => closed.done _
  · simp only [hagrees]
    exact closed.bind (closed.note _) fun _ => closed.bind hupdate fun _ => closed.done _

end Desired

/-- The calls for one container work for its desired definition; without one, nothing is called. -/
theorem realizeOne
    (hask : ∀ desired, b.desired ctx c = .ok desired → ∀ r : Request, r.WorksFor desired →
      P _ (ask ctx.component ctx.config.callDeadline r)) : P _ (b.realizeOne ctx c) := by
  refine closed.bind (closed.notes _) fun _ => closed.plain.ofExcept_bind fun desired hdesired => ?_
  have hfound := hask desired hdesired
  refine closed.bind (hfound (.listContainers (Labels.ofContainer ctx.component c.aliasName)) trivial)
    fun found => ?_
  cases Lookup.ofMatches found with
  | missing => exact closed.bind (closed.startContainer hfound) fun _ => closed.done _
  | found live => exact closed.keepOrReplace hfound live
  | conflict lives => exact closed.fail _

theorem realizeEach {components : List Component}
    (hask : ∀ c ∈ components, ∀ desired, b.desired ctx c = .ok desired →
      ∀ r : Request, r.WorksFor desired → P _ (ask ctx.component ctx.config.callDeadline r)) :
    P _ (b.realizeEach ctx components) := by
  induction components with
  | nil => exact closed.done _
  | cons c rest ih =>
    rw [List.forall_mem_cons] at hask
    exact closed.bind (closed.realizeOne hask.1) fun _ => closed.bind (closed.note _) fun _ =>
      closed.bind (ih hask.2) fun _ => closed.done _

theorem realize
    (hask : ∀ c ∈ b.components, ∀ desired, b.desired ctx c = .ok desired →
      ∀ r : Request, r.WorksFor desired → P _ (ask ctx.component ctx.config.callDeadline r)) :
    P _ (b.realize ctx) :=
  closed.bind (closed.plain.ofExcept _) fun _ => closed.bind (closed.realizeEach hask) fun _ =>
    closed.done _

end Containers

end Closed

/-! ## Actions -/

namespace Composes

variable {command : Command} {container : ListedContainer} (composes : Composes P)
  (hexecute : ∀ argv, P _ (command.execute ctx container argv))
  (hruns : P _ (note (.supervisorRuns ctx.component command.component)))
  (hstart : P _ (note (.notRestarting command.id)))

include composes hexecute hruns hstart

theorem act (action : Action) : P _ (command.act ctx container action) := by
  cases action with
  | shell => exact composes.bind (hexecute _) fun _ => composes.done _
  | launchSupervisor =>
    unfold Command.act
    by_cases hsupervisor : ctx.config.supervisor.runsIn container
    · simp only [hsupervisor, if_true]
      exact composes.bind hruns fun _ => composes.done _
    · simp only [hsupervisor]
      exact composes.bind (hexecute _) fun _ => composes.done _
  | restart =>
    exact composes.bind (hexecute _) fun _ => composes.bind (hexecute _) fun _ => composes.done _
  | start =>
    exact composes.bind hstart fun _ => composes.bind (hexecute _) fun _ => composes.done _

theorem actEach (group : CommandGroup) (actions : List Action) :
    P _ (command.actEach ctx group container actions) := by
  induction actions with
  | nil => exact composes.done _
  | cons action rest ih =>
    exact composes.bind (composes.act hexecute hruns hstart action) fun _ =>
      composes.bind ih fun _ => composes.done _

end Composes

/-! ## Commands -/

namespace Plain

variable {allKept : Bool} {containers : List ListedContainer} (plain : Plain P)

include plain

theorem run {command : Command} (hexecute : ∀ container argv, P _ (command.execute ctx container argv))
    (group : CommandGroup) : P _ (command.run ctx group allKept containers) := by
  unfold Command.run
  cases command.actions group allKept with
  | nil => exact plain.bind (plain.note _ rfl) fun _ => plain.done _
  | cons action rest =>
    exact plain.bind (plain.ofExcept _) fun container => plain.bind (plain.note _ rfl) fun _ =>
      plain.actEach (hexecute container) (plain.note _ rfl) (plain.note _ rfl) group _

theorem runEach {selected : List (CommandGroup × Command)}
    (hexecute : ∀ gc ∈ selected, ∀ container argv, P _ (gc.2.execute ctx container argv)) :
    P _ (CommandSelection.runEach ctx allKept containers selected) := by
  induction selected with
  | nil => exact plain.done _
  | cons gc rest ih =>
    rw [List.forall_mem_cons] at hexecute
    exact plain.bind (plain.run hexecute.1 _) fun _ => plain.bind (ih hexecute.2) fun _ => plain.done _

theorem runAll {s : CommandSelection}
    (hexecute : ∀ gc ∈ s.commands, ∀ container argv, P _ (gc.2.execute ctx container argv)) :
    P _ (CommandSelection.runAll ctx s allKept containers) := by
  unfold CommandSelection.runAll
  by_cases hempty : s.isEmpty
  · rw [if_pos hempty]
    exact plain.fail _
  · rw [if_neg hempty]
    exact plain.bind (plain.runEach hexecute) fun _ => plain.done _

end Plain

end Script

end DevfilePush
