import DevfilePush.Lock.Registry

/-!
# Clients of the locks

A client asks for a lock, looks now and then whether it has got it, and leaves. It knows of its locks
only what it saw when it last looked, so a client that was handed a lock still counts as waiting until
it looks again. A client keeps the lock that it has while it waits for another one, and lets it go when
it gets that one.

## Main definitions

* `Claims`: the lock that a client has and the one that it waits for.
* `LockClients.acquire`, `LockClients.poll`, `LockClients.release`
-/

namespace DevfilePush

/-- What a client is seen to be. -/
inductive ClientView where
  | free
  | waiting
  | held
  deriving DecidableEq, Repr

/-- The view's name. -/
def ClientView.name : ClientView → String
  | free => "free"
  | waiting => "waiting"
  | held => "held"

/-- What a client claims, by the parties as which it asked. -/
structure Claims where
  /-- The lock that it knows to have. -/
  held : Option Party
  /-- The lock that it waits for. -/
  awaited : Option Party
  deriving DecidableEq, Repr

namespace Claims

/-- A client that claims nothing. -/
def nothing : Claims := ⟨none, none⟩

/-- The parties as which a client claims something. -/
def parties (c : Claims) : List Party := c.held.toList ++ c.awaited.toList

/-- A client that has a lock counts as holding it, whatever it waits for. -/
def view (c : Claims) : ClientView :=
  if c.held.isSome then .held else if c.awaited.isSome then .waiting else .free

end Claims

/-- A registry and the clients that use it, each under a name of its own. -/
structure LockClients where
  registry : LockRegistry
  claims : SortedMap String Claims
  /-- The party that the next request is made as. -/
  fresh : Party
  deriving DecidableEq

namespace LockClients

/-- No clients. -/
def empty : LockClients := ⟨.empty, ∅, 0⟩

/-- What a client claims. -/
def claimsOf (c : LockClients) (client : String) : Claims := (c.claims.get? client).getD .nothing

/-- What a client is seen to be. -/
def view (c : LockClients) (client : String) : ClientView := (c.claimsOf client).view

/-- A client's claims are now these; what it claimed before and does not any more, it lets go. -/
def update (c : LockClients) (client : String) (claims : Claims) : LockClients :=
  let dropped := (c.claimsOf client).parties.filter (· ∉ claims.parties)
  { c with
    registry := dropped.foldl LockRegistry.leave c.registry
    claims := c.claims.insert client claims }

/-- A client looks whether it has got the lock for which it asked as a party. -/
def look (c : LockClients) (client : String) (party : Party) : LockClients :=
  let claims := c.claimsOf client
  if c.registry.owns party then
    let awaited := if claims.awaited = some party then none else claims.awaited
    c.update client ⟨some party, awaited⟩
  else c.update client { claims with awaited := some party }

/-- A client asks for a component's lock and looks at once. -/
def acquire (c : LockClients) (component client : String) : LockClients :=
  let asked := { c with registry := c.registry.arrive component c.fresh, fresh := c.fresh + 1 }
  asked.look client c.fresh

/-- A waiting client looks again. -/
def poll (c : LockClients) (client : String) : LockClients :=
  match (c.claimsOf client).awaited with
  | some party => c.look client party
  | none => c

/-- A client lets its lock go and gives up waiting. -/
def release (c : LockClients) (client : String) : LockClients := c.update client .nothing

end LockClients

end DevfilePush
