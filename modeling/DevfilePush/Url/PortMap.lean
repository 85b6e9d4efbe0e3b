import DevfilePush.PushError
import DevfilePush.SortedMap
import DevfilePush.Url.Basic

/-!
# Ports bound to a container

A container gets a binding for every URL that applies to it, and a URL that leads to an undeclared
port is an error instead of a missing binding. A container that declares no endpoint ignores all URLs.

## Main definitions

* `PortMap`: the URL bound to each container port, on one host address.
* `PortMap.ofUrls`: the bindings of a container, or the first stale URL.
-/

namespace DevfilePush

/-- A host port that leads to a container port. -/
structure PortBinding where
  containerPort : Port
  hostIp : String
  hostPort : Port
  deriving DecidableEq, Repr, Inhabited

/-- The binding as container port, arrow, host address and host port. -/
def PortBinding.text (b : PortBinding) : String :=
  toString b.containerPort.toNat ++ " -> " ++ b.hostIp ++ ":" ++ toString b.hostPort.toNat

/-- The URLs bound to a container, by container port. -/
structure PortMap where
  /-- The host address of every binding. -/
  hostIp : String
  /-- The URL that each bound port belongs to. -/
  urls : SortedMap Port UrlRecord
  deriving DecidableEq

namespace PortMap

/-- No bindings. -/
def empty (hostIp : String) : PortMap := ⟨hostIp, ∅⟩

/-- The binding of a URL at a container port. -/
def binding (m : PortMap) (port : Port) (url : UrlRecord) : PortBinding :=
  ⟨port, m.hostIp, url.exposedPort⟩

/-- The bindings, in the order of their container ports. -/
def bindings (m : PortMap) : List PortBinding := m.urls.entries.map fun e => m.binding e.1 e.2

/-- Each bound port with the name of its URL, in the order of the ports. -/
def names (m : PortMap) : List (Port × String) := m.urls.entries.map fun e => (e.1, e.2.name)

/-- The binding of a container port. -/
def get? (m : PortMap) (port : Port) : Option PortBinding := (m.urls.get? port).map (m.binding port)

/-- The number of bindings. -/
def size (m : PortMap) : Nat := m.urls.size

/-- Whether nothing is bound. -/
def isEmpty (m : PortMap) : Bool := m.urls.isEmpty

/-- Binds a URL; a URL bound earlier at the same port gives way. -/
def bind (m : PortMap) (url : UrlRecord) : PortMap := { m with urls := m.urls.insert url.port url }

@[simp] theorem hostIp_bind (m : PortMap) (url : UrlRecord) : (m.bind url).hostIp = m.hostIp := rfl

@[simp] theorem get?_bind (m : PortMap) (url : UrlRecord) (port : Port) :
    (m.bind url).get? port =
      if port = url.port then some ⟨url.port, m.hostIp, url.exposedPort⟩ else m.get? port := by
  by_cases h : port = url.port
  · simp [get?, bind, binding, h]
  · simp only [get?, bind, SortedMap.get?_insert, h, if_false]
    rfl

/-- The URLs that apply to a container, in the order given. -/
def applicable (c : Component) (urls : List UrlRecord) : List UrlRecord :=
  urls.filter (·.appliesTo c)

/-- The first applicable URL that leads to an undeclared port, if the container has endpoints at all. -/
def stale? (c : Component) (urls : List UrlRecord) : Option UrlRecord :=
  if c.endpoints.isEmpty then none
  else (applicable c urls).find? fun url => !c.declaresPort url.port

/-- The applicable URLs with a declared port that come before the first without one. -/
def bound (c : Component) (urls : List UrlRecord) : List UrlRecord :=
  (applicable c urls).takeWhile fun url => c.declaresPort url.port

/-- The bindings of a container; of several URLs at one port the last counts. -/
def ofUrls (component : String) (c : Component) (urls : List UrlRecord) (hostIp : String) :
    Except PushError PortMap :=
  match stale? c urls with
  | some url => .error (.staleUrl component url.port url.name)
  | none => .ok ((bound c urls).foldl bind (empty hostIp))

end PortMap

end DevfilePush
