import DevfilePush.SortedMap

/-!
# One lock per component

Two pushes of one component must not overlap, so each holds the component's lock while it works. A
lock is made when somebody first asks for its name and is forgotten, at the next request for any name,
once nobody is at it. Parties at one lock form a queue in the order of their arrival: the first owns
the lock, the others wait, and when the first leaves the next owns the lock at once.

## Main definitions

* `LockRegistry`: the tracked names with their locks, and who is at each lock.
* `LockRegistry.arrive`, `LockRegistry.leave`: the two changes of a registry.
* `LockRegistry.owner?`: the party that owns a lock.
-/

namespace DevfilePush

/-- The identity of a lock. A lock that was forgotten and made anew has another one. -/
abbrev LockId := Nat

/-- Somebody who asked for a lock once. -/
abbrev Party := Nat

/-- The locks of all components in use. -/
structure LockRegistry where
  /-- The lock that each tracked name leads to. -/
  locks : SortedMap String LockId
  /-- Who is at which lock, in the order of arrival. -/
  present : List (LockId × Party)
  /-- The identity of the next lock that is made. -/
  fresh : LockId
  deriving DecidableEq

namespace LockRegistry

/-- The registry before anybody asks. -/
def empty : LockRegistry := ⟨∅, [], 0⟩

instance : Inhabited LockRegistry := ⟨empty⟩

/-- The parties at a lock, in the order of arrival. -/
def queue (r : LockRegistry) (lock : LockId) : List Party :=
  (r.present.filter (·.1 = lock)).map (·.2)

/-- The party that owns a lock. -/
def owner? (r : LockRegistry) (lock : LockId) : Option Party := (r.queue lock).head?

/-- The lock that a party is at. -/
def lockOf? (r : LockRegistry) (party : Party) : Option LockId :=
  (r.present.find? (·.2 = party)).map (·.1)

/-- Whether a party owns the lock that it is at. -/
def owns (r : LockRegistry) (party : Party) : Bool :=
  (r.lockOf? party).any fun lock => r.owner? lock = some party

/-- Whether somebody is at a lock. -/
def inUse (r : LockRegistry) (lock : LockId) : Bool := r.present.any (·.1 = lock)

/-- Forgets every name at whose lock nobody is. -/
def prune (r : LockRegistry) : LockRegistry :=
  { r with locks := r.locks.filter fun _ lock => r.inUse lock }

/-- A party asks for a name's lock and joins the queue of the lock that the name leads to. -/
def arrive (r : LockRegistry) (name : String) (party : Party) : LockRegistry :=
  let kept := r.prune
  match kept.locks.get? name with
  | some lock => { kept with present := kept.present ++ [(lock, party)] }
  | none =>
    { locks := kept.locks.insert name kept.fresh
      present := kept.present ++ [(kept.fresh, party)]
      fresh := kept.fresh + 1 }

/-- A party leaves: it lets the lock go that it owns, or gives up waiting. -/
def leave (r : LockRegistry) (party : Party) : LockRegistry :=
  { r with present := r.present.filter (·.2 ≠ party) }

/-- The number of tracked names. -/
def size (r : LockRegistry) : Nat := r.locks.size

/-- Whether no name is tracked. -/
def isEmpty (r : LockRegistry) : Bool := r.locks.isEmpty

@[simp] theorem locks_leave (r : LockRegistry) (party : Party) : (r.leave party).locks = r.locks :=
  rfl

@[simp] theorem queue_leave (r : LockRegistry) (party : Party) (lock : LockId) :
    (r.leave party).queue lock = (r.queue lock).filter (· ≠ party) := by
  simp only [queue, leave, List.filter_map, List.filter_filter]
  congr 1
  refine List.filter_congr fun e _ => ?_
  by_cases h : e.2 = party <;> simp [h]

end LockRegistry

end DevfilePush
