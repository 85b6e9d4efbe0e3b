import DevfilePush.Url.PortMap

/-!
# Bindings and names in two tables

The bindings of a container come about one URL after another. They may as well be kept in two tables, one
of the bindings and one of the names of their URLs, which are filled side by side. The two tables are
views of the one map from ports to URLs all along, so that they have the same ports, and filling them
fails for the same URL.

## Main definitions

* `PortMap.bindEach`: the URLs taken one after another.
* `PortTables`, `PortTables.ofUrls`: the two tables, and how they are filled.
* `PortMap.tables`: the bindings of a container as two tables.

## Main statements

* `PortTables.enterEach_tables`: filling the two tables comes to the same as binding the URLs.
* `PortMap.entries_tables`: what the two tables list.
-/

namespace DevfilePush

/-- Takes URLs in order: one that does not apply is passed over, one at a declared port is bound, and one
at an undeclared port is an error, unless no port is declared. -/
def PortMap.bindEach (component : String) (c : Component) (ports : PortMap) :
    List UrlRecord → Except PushError PortMap
  | [] => .ok ports
  | url :: rest =>
    if url.appliesTo c then
      if c.declaresPort url.port then bindEach component c (ports.bind url) rest
      else if c.endpoints.isEmpty then bindEach component c ports rest
      else .error (.staleUrl component url.port url.name)
    else bindEach component c ports rest

/-- What is bound to a container, in two tables by container port. -/
structure PortTables where
  bindings : SortedMap Port PortBinding
  names : SortedMap Port String

namespace PortTables

/-- Enters a URL in both tables; what either of them has at the same port gives way. -/
def enter (t : PortTables) (hostIp : String) (url : UrlRecord) : PortTables where
  bindings := t.bindings.insert url.port ⟨url.port, hostIp, url.exposedPort⟩
  names := t.names.insert url.port url.name

/-- Takes URLs in order: one that is not exposed or is for another container is passed over, one at a
declared port is entered, and one at an undeclared port is an error, unless no port is declared. -/
def enterEach (component : String) (c : Component) (hostIp : String) (t : PortTables) :
    List UrlRecord → Except PushError PortTables
  | [] => .ok t
  | url :: rest =>
    if url.exposedPort = 0 then enterEach component c hostIp t rest
    else if url.container.any (· ≠ c.aliasName) then enterEach component c hostIp t rest
    else if c.declaresPort url.port then enterEach component c hostIp (t.enter hostIp url) rest
    else if !c.endpoints.isEmpty then .error (.staleUrl component url.port url.name)
    else enterEach component c hostIp t rest

/-- The tables of a container. -/
def ofUrls (component : String) (c : Component) (urls : List UrlRecord) (hostIp : String) :
    Except PushError PortTables :=
  enterEach component c hostIp ⟨∅, ∅⟩ urls

end PortTables

namespace PortMap

/-- The bindings and the names that are listed of a container, each under its port. -/
def tables (m : PortMap) : PortTables where
  bindings := m.urls.mapValues m.binding
  names := m.urls.mapValues fun _ url => url.name

@[simp] theorem tables_empty (hostIp : String) : (empty hostIp).tables = ⟨∅, ∅⟩ := rfl

/-- Binding a URL enters it in both tables. -/
@[simp] theorem tables_bind (m : PortMap) (url : UrlRecord) :
    (m.bind url).tables = m.tables.enter m.hostIp url := by
  simp only [tables, bind, PortTables.enter, SortedMap.mapValues_insert]
  rfl

/-- The two tables list the bindings and the names. -/
theorem entries_tables (m : PortMap) :
    m.tables.bindings.entries = m.bindings.map (fun b => (b.containerPort, b)) ∧
      m.tables.names.entries = m.names := by
  simp [tables, bindings, names, SortedMap.mapValues, binding]

end PortMap

namespace PortTables

variable {component : String} {c : Component} {urls : List UrlRecord}

/-- **Side by side.** Filling the two tables comes to the same as binding the URLs, and fails for the
same one. -/
theorem enterEach_tables (ports : PortMap) :
    enterEach component c ports.hostIp ports.tables urls =
      (ports.bindEach component c urls).map PortMap.tables := by
  induction urls generalizing ports with
  | nil => rfl
  | cons url rest ih =>
    have hbind : enterEach component c ports.hostIp (ports.tables.enter ports.hostIp url) rest =
        ((ports.bind url).bindEach component c rest).map PortMap.tables := by
      rw [← ih, PortMap.tables_bind, PortMap.hostIp_bind]
    have happlies : url.appliesTo c = true ↔
        url.exposedPort ≠ 0 ∧ ¬ url.container.any (· ≠ c.aliasName) = true := by
      cases hcontainer : url.container <;> simp [UrlRecord.appliesTo, hcontainer]
    rw [enterEach, PortMap.bindEach]
    by_cases hexposed : url.exposedPort = 0
    · rw [if_pos hexposed, if_neg fun h => (happlies.1 h).1 hexposed, ih]
    rw [if_neg hexposed]
    by_cases hother : url.container.any (· ≠ c.aliasName) = true
    · rw [if_pos hother, if_neg fun h => (happlies.1 h).2 hother, ih]
    rw [if_neg hother, if_pos (happlies.2 ⟨hexposed, hother⟩)]
    by_cases hdeclared : c.declaresPort url.port = true
    · rw [if_pos hdeclared, if_pos hdeclared, hbind]
    rw [if_neg hdeclared, if_neg hdeclared]
    by_cases hempty : c.endpoints.isEmpty = true
    · rw [if_pos hempty, if_neg (by simp [hempty]), ih]
    · rw [if_neg hempty, if_pos (by simp [hempty])]
      rfl

end PortTables

end DevfilePush
