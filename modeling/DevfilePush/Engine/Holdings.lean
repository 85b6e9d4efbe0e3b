import DevfilePush.Engine.Request

/-!
# What an engine holds

An engine as far as its callers can tell: the volumes and containers that it holds, and what a call
that takes effect makes of them. How an engine names what it makes, in which order it lists it and
what a command ends with are left to the engine.

## Main definitions

* `Running`, `Holdings`: a container with its definition, and all that an engine holds.
* `Holdings.volumesWith`, `Holdings.containersWith`: what carries all labels of a selector.
* `Holdings.Grants`: the effect of a call that is granted, with its reply.
-/

namespace DevfilePush

/-- A container with the definition it was created from. -/
structure Running where
  live : ListedContainer
  definition : Definition
  deriving DecidableEq, Inhabited

/-- All that an engine holds. -/
structure Holdings where
  volumes : List Volume
  containers : List Running
  deriving DecidableEq, Inhabited

namespace Holdings

/-- The volumes that carry all labels of a selector. -/
def volumesWith (h : Holdings) (selector : Labels) : List Volume :=
  h.volumes.filter fun v => selector.selects v.labels

/-- The containers that carry all labels of a selector. -/
def containersWith (h : Holdings) (selector : Labels) : List Running :=
  h.containers.filter fun c => selector.selects c.live.labels

/-- With one more volume. -/
def addVolume (h : Holdings) (v : Volume) : Holdings := { h with volumes := h.volumes ++ [v] }

/-- With one more container. -/
def addContainer (h : Holdings) (c : Running) : Holdings :=
  { h with containers := h.containers ++ [c] }

/-- Without the containers of an id. -/
def removeContainer (h : Holdings) (id : String) : Holdings :=
  { h with containers := h.containers.filter (·.live.id ≠ id) }

@[simp] theorem containers_addVolume (h : Holdings) (v : Volume) :
    (h.addVolume v).containers = h.containers := rfl

@[simp] theorem volumes_addContainer (h : Holdings) (c : Running) :
    (h.addContainer c).volumes = h.volumes := rfl

@[simp] theorem volumes_removeContainer (h : Holdings) (id : String) :
    (h.removeContainer id).volumes = h.volumes := rfl

@[simp] theorem volumesWith_addVolume (h : Holdings) (v : Volume) (selector : Labels) :
    (h.addVolume v).volumesWith selector =
      h.volumesWith selector ++ if selector.selects v.labels then [v] else [] := by
  by_cases hv : selector.selects v.labels <;> simp [volumesWith, addVolume, hv]

@[simp] theorem containersWith_addContainer (h : Holdings) (c : Running) (selector : Labels) :
    (h.addContainer c).containersWith selector =
      h.containersWith selector ++ if selector.selects c.live.labels then [c] else [] := by
  by_cases hc : selector.selects c.live.labels <;> simp [containersWith, addContainer, hc]

@[simp] theorem containersWith_removeContainer (h : Holdings) (id : String) (selector : Labels) :
    (h.removeContainer id).containersWith selector =
      (h.containersWith selector).filter (·.live.id ≠ id) := by
  simp only [containersWith, removeContainer, List.filter_filter, Bool.and_comm]

theorem containersWith_congr {h k : Holdings} (same : h.containers = k.containers)
    (selector : Labels) : h.containersWith selector = k.containersWith selector := by
  rw [containersWith, same, containersWith]

theorem volumesWith_congr {h k : Holdings} (same : h.volumes = k.volumes) (selector : Labels) :
    h.volumesWith selector = k.volumesWith selector := by
  rw [volumesWith, same, volumesWith]

/-- Whether no two containers have one id. -/
def DistinctIds (h : Holdings) : Prop := (h.containers.map (·.live.id)).Nodup

instance (h : Holdings) : Decidable h.DistinctIds :=
  inferInstanceAs (Decidable (h.containers.map (·.live.id)).Nodup)

/-- A call takes effect: `h.Grants r reply after` says that the engine that held `h` did what `r` asks
for, replied `reply` and now holds `after`. A listing gives exactly what carries every label; a new
resource has the labels that were asked for; inspecting gives the definition of a container of the id. -/
def Grants (h : Holdings) : (r : Request) → r.Reply → Holdings → Prop
  | .listVolumes selector, found, after => List.Perm found (h.volumesWith selector) ∧ after = h
  | .createVolume _ labels, volume, after => Volume.labels volume = labels ∧ after = h.addVolume volume
  | .pullImage _, _, after => after = h
  | .createContainer d, id, after =>
    ∃ c : Running, c.live.id = id ∧ c.live.labels = d.config.labels ∧ c.definition = d ∧
      after = h.addContainer c
  | .removeContainer id, _, after => after = h.removeContainer id
  | .listContainers selector, found, after =>
    List.Perm found ((h.containersWith selector).map (·.live)) ∧ after = h
  | .inspectContainer id, d, after =>
    (∃ c ∈ h.containers, c.live.id = id ∧ c.definition = d) ∧ after = h
  | .exec .., _, after => after = h

/-- A call that alters nothing leaves everything as it was. -/
theorem eq_of_grants {h after : Holdings} {r : Request} {reply : r.Reply}
    (granted : h.Grants r reply after) (quiet : r.alters = false) : after = h := by
  cases r with
  | createVolume | pullImage | createContainer | removeContainer => cases quiet
  | listVolumes | listContainers | inspectContainer => exact granted.2
  | exec => exact granted

end Holdings

end DevfilePush
