import DevfilePush.Proofs.Container.Exposure
import DevfilePush.Proofs.Url.Tables

/-!
# Which URLs are bound

Of the URLs that apply to a container, the first that leads to an undeclared port is an error, unless the
container declares no port at all; then there is nothing to bind. Without such a URL every declared port
that some URL leads to is bound, to the last of these. Only URLs that apply have any part in this, and
their order counts only where several lead to one port.

## Main definitions

* `UrlRecord.StaleFor`, `UrlRecord.FirstStale`: URLs at undeclared ports.
* `UrlRecord.LastAt`: the URL that counts at a port.
* `PortMap.Covers`: everything that URLs ask for is bound, and nothing else.

## Main statements

* `PortMap.ofUrls_eq_bindEach`: the bindings come about one URL after another.
* `PortMap.tables_ofUrls`: bindings and names may be kept in two tables.
* `PortMap.ofUrls_covers`: the bindings of a container, if none of its URLs is stale.
* `PortMap.ofUrls_exact`: when there are bindings, what they are and which URLs they depend on.
-/

namespace DevfilePush

namespace UrlRecord

variable {url : UrlRecord} {c : Component}

/-- A URL applies to a container if it is exposed and meant for it. -/
def Applies (url : UrlRecord) (c : Component) : Prop := url.exposedPort ≠ 0 ∧ url.MeantFor c

/-- A URL that applies to a container leads to none of the ports that the container declares, and it does
declare some. -/
def StaleFor (url : UrlRecord) (c : Component) : Prop :=
  url.Applies c ∧ c.endpoints ≠ [] ∧ url.port ∉ c.endpoints.map (·.targetPort)

/-- The first of some URLs that is stale for a container. -/
def FirstStale (url : UrlRecord) (urls : List UrlRecord) (c : Component) : Prop :=
  ∃ before after, urls = before ++ url :: after ∧ url.StaleFor c ∧
    ∀ earlier ∈ before, ¬ earlier.StaleFor c

/-- The last of some URLs that applies to a container and leads to a port. -/
def LastAt (url : UrlRecord) (urls : List UrlRecord) (c : Component) (port : Port) : Prop :=
  ∃ before after, urls = before ++ url :: after ∧ url.Applies c ∧ url.port = port ∧
    ∀ later ∈ after, later.Applies c → later.port ≠ port

instance (url : UrlRecord) (c : Component) : Decidable (url.MeantFor c) :=
  inferInstanceAs (Decidable (_ ∨ _))

instance (url : UrlRecord) (c : Component) : Decidable (url.Applies c) :=
  inferInstanceAs (Decidable (_ ∧ _))

instance (url : UrlRecord) (c : Component) : Decidable (url.StaleFor c) :=
  inferInstanceAs (Decidable (_ ∧ _))

theorem applies_iff : url.Applies c ↔ url.appliesTo c = true := appliesTo_iff.symm

theorem staleFor_iff : url.StaleFor c ↔
    url.appliesTo c = true ∧ c.endpoints ≠ [] ∧ ¬ c.declaresPort url.port = true := by
  rw [StaleFor, applies_iff, Component.declaresPort_iff]

/-- The last URL at a port is the first from the end. -/
theorem lastAt_iff {urls : List UrlRecord} {port : Port} : url.LastAt urls c port ↔
    urls.reverse.find? (fun url => decide (url.Applies c ∧ url.port = port)) = some url := by
  rw [List.find?_eq_some_iff_append]
  simp only [decide_eq_true_eq, Bool.not_eq_true', decide_eq_false_iff_not, not_and]
  constructor
  · rintro ⟨before, after, rfl, happlies, hport, hafter⟩
    refine ⟨⟨happlies, hport⟩, after.reverse, before.reverse, by simp, fun later hlater => ?_⟩
    exact hafter later (List.mem_reverse.1 hlater)
  · rintro ⟨⟨happlies, hport⟩, after, before, hurls, hafter⟩
    refine ⟨before.reverse, after.reverse, ?_, happlies, hport, fun later hlater => ?_⟩
    · rw [List.reverse_eq_iff.1 hurls]
      simp
    · exact hafter later (List.mem_reverse.1 hlater)

/-- If a URL applies and leads to a port, then there is a last one that does. -/
theorem exists_lastAt {urls : List UrlRecord} (hurl : url ∈ urls) (happlies : url.Applies c) :
    ∃ last : UrlRecord, last.LastAt urls c url.port := by
  have hsome : (urls.reverse.find? fun other =>
      decide (other.Applies c ∧ other.port = url.port)).isSome = true :=
    List.find?_isSome.2 ⟨url, List.mem_reverse.2 hurl, decide_eq_true ⟨happlies, rfl⟩⟩
  obtain ⟨last, hlast⟩ := Option.isSome_iff_exists.1 hsome
  exact ⟨last, lastAt_iff.2 hlast⟩

end UrlRecord

namespace PortMap

variable {component hostIp : String} {c : Component} {url : UrlRecord} {urls : List UrlRecord}
  {ports : PortMap}

/-! ## The first stale URL -/

theorem stale?_eq_find? : stale? c urls = urls.find? fun url => decide (url.StaleFor c) := by
  unfold stale?
  by_cases hempty : c.endpoints = []
  · have hfresh : ∀ url : UrlRecord, ¬ url.StaleFor c := fun url h => h.2.1 hempty
    rw [if_pos (List.isEmpty_iff.2 hempty), eq_comm, List.find?_eq_none]
    exact fun url _ => by simp [hfresh url]
  · rw [if_neg (mt List.isEmpty_iff.1 hempty), applicable, List.find?_filter]
    congr 1
    funext url
    rw [Bool.eq_iff_iff, decide_eq_true_iff, decide_eq_true_iff, UrlRecord.staleFor_iff]
    simp only [Bool.not_eq_true', Bool.not_eq_true, hempty, ne_eq, not_false_eq_true, true_and]

theorem stale?_eq_some_iff : stale? c urls = some url ↔ url.FirstStale urls c := by
  rw [stale?_eq_find?, List.find?_eq_some_iff_append]
  simp only [decide_eq_true_eq, Bool.not_eq_true', decide_eq_false_iff_not]
  constructor
  · rintro ⟨hstale, before, after, rfl, hbefore⟩
    exact ⟨before, after, rfl, hstale, hbefore⟩
  · rintro ⟨before, after, rfl, hstale, hbefore⟩
    exact ⟨hstale, before, after, rfl, hbefore⟩

theorem stale?_cons_of_not (h : ¬ url.StaleFor c) : stale? c (url :: urls) = stale? c urls := by
  simp [stale?_eq_find?, h]

/-! ## One URL after another -/

theorem bindEach_eq : bindEach component c ports urls = (stale? c urls).elim
    (.ok (((applicable c urls).filter fun url => c.declaresPort url.port).foldl bind ports))
    fun url => .error (.staleUrl component url.port url.name) := by
  induction urls generalizing ports with
  | nil =>
    rw [stale?_eq_find?]
    rfl
  | cons url rest ih =>
    by_cases happlies : url.appliesTo c = true
    · have hcons : applicable c (url :: rest) = url :: applicable c rest :=
        List.filter_cons_of_pos happlies
      by_cases hdeclared : c.declaresPort url.port = true
      · have hfresh : ¬ url.StaleFor c := fun h => (UrlRecord.staleFor_iff.1 h).2.2 hdeclared
        rw [bindEach, if_pos happlies, if_pos hdeclared, ih, stale?_cons_of_not hfresh, hcons,
          List.filter_cons_of_pos (by exact hdeclared), List.foldl_cons]
      · rw [bindEach, if_pos happlies, if_neg hdeclared]
        by_cases hempty : c.endpoints = []
        · have hfresh : ¬ url.StaleFor c := fun h => h.2.1 hempty
          rw [if_pos (List.isEmpty_iff.2 hempty), ih, stale?_cons_of_not hfresh, hcons,
            List.filter_cons_of_neg (by exact hdeclared)]
        · have hstale : url.StaleFor c := UrlRecord.staleFor_iff.2 ⟨happlies, hempty, hdeclared⟩
          have hfirst : stale? c (url :: rest) = some url :=
            stale?_eq_some_iff.2 ⟨[], rest, rfl, hstale, List.forall_mem_nil _⟩
          rw [if_neg (mt List.isEmpty_iff.1 hempty), hfirst, Option.elim_some]
    · have hfresh : ¬ url.StaleFor c := fun h => happlies (UrlRecord.staleFor_iff.1 h).1
      have hcons : applicable c (url :: rest) = applicable c rest :=
        List.filter_cons_of_neg happlies
      rw [bindEach, if_neg happlies, ih, stale?_cons_of_not hfresh, hcons]

/-- The bindings of a container come about one URL after another. -/
theorem ofUrls_eq_bindEach :
    ofUrls component c urls hostIp = bindEach component c (empty hostIp) urls := by
  rw [bindEach_eq, ofUrls]
  cases hstale : stale? c urls with
  | some url => rfl
  | none => rw [bound_of_stale?_eq_none hstale, Option.elim_none]

/-- Two tables that are filled side by side are those of the bindings. -/
theorem tables_ofUrls : PortTables.ofUrls component c urls hostIp =
    (ofUrls component c urls hostIp).map tables := by
  rw [ofUrls_eq_bindEach, ← PortTables.enterEach_tables, tables_empty]
  rfl

/-- Two tables that are filled side by side have the same ports. -/
theorem keys_tables_ofUrls {t : PortTables} (h : PortTables.ofUrls component c urls hostIp = .ok t) :
    t.names.keys = t.bindings.keys := by
  rw [tables_ofUrls] at h
  cases hports : ofUrls component c urls hostIp with
  | error error =>
    rw [hports] at h
    cases h
  | ok ports =>
    rw [hports] at h
    obtain rfl : ports.tables = t := Except.ok.inj h
    simp [tables]

theorem ofUrls_error_iff {error : PushError} : ofUrls component c urls hostIp = .error error ↔
    ∃ url : UrlRecord, url.FirstStale urls c ∧ error = .staleUrl component url.port url.name := by
  unfold ofUrls
  cases hstale : stale? c urls with
  | some url =>
    constructor
    · intro h
      exact ⟨url, stale?_eq_some_iff.1 hstale, (Except.error.inj h).symm⟩
    · rintro ⟨other, hfirst, rfl⟩
      rw [stale?_eq_some_iff.2 hfirst] at hstale
      rw [Option.some.inj hstale]
  | none =>
    constructor
    · intro h
      cases h
    · rintro ⟨other, hfirst, -⟩
      rw [stale?_eq_some_iff.2 hfirst] at hstale
      cases hstale

/-- There is an error if and only if some URL that applies leads to an undeclared port, and there are
declared ones. -/
theorem exists_error_iff : (∃ error, ofUrls component c urls hostIp = .error error) ↔
    c.endpoints ≠ [] ∧
      ∃ url ∈ urls, url.Applies c ∧ url.port ∉ c.endpoints.map (·.targetPort) := by
  constructor
  · rintro ⟨error, h⟩
    obtain ⟨url, ⟨before, after, rfl, ⟨happlies, hlistens, hundeclared⟩, -⟩, -⟩ :=
      ofUrls_error_iff.1 h
    exact ⟨hlistens, url, by simp, happlies, hundeclared⟩
  · rintro ⟨hlistens, url, hurl, happlies, hundeclared⟩
    have hsome : (urls.find? fun url => decide (url.StaleFor c)).isSome = true :=
      List.find?_isSome.2 ⟨url, hurl, decide_eq_true ⟨happlies, hlistens, hundeclared⟩⟩
    obtain ⟨first, hfirst⟩ := Option.isSome_iff_exists.1 hsome
    rw [← stale?_eq_find?, stale?_eq_some_iff] at hfirst
    exact ⟨_, ofUrls_error_iff.2 ⟨first, hfirst, rfl⟩⟩

/-! ## The last URL at each port -/

theorem stale?_eq_none (h : ofUrls component c urls hostIp = .ok ports) : stale? c urls = none := by
  cases hstale : stale? c urls with
  | none => rfl
  | some url => simp [ofUrls, hstale] at h

/-- What is bound at a port is the last URL that applies and leads there, if the port is declared. -/
theorem mem_entries_iff (h : ofUrls component c urls hostIp = .ok ports) {port : Port} :
    (port, url) ∈ ports.urls.entries ↔
      port ∈ c.endpoints.map (·.targetPort) ∧ url.LastAt urls c port := by
  have hfind : ports.urls.get? port = urls.reverse.find? fun url =>
      decide (url.Applies c ∧ url.port = port) && c.declaresPort port := by
    rw [(get?_ofUrls h port).2, bound_of_stale?_eq_none (stale?_eq_none h), applicable,
      ← List.filter_reverse, ← List.filter_reverse, List.find?_filter, List.find?_filter]
    congr 1
    funext url
    by_cases hport : url.port = port
    · simp [-Component.declaresPort_iff, hport, UrlRecord.applies_iff]
    · simp [hport]
  rw [← SortedMap.get?_eq_some_iff, hfind, ← Component.declaresPort_iff, UrlRecord.lastAt_iff]
  by_cases hdeclared : c.declaresPort port = true
  · simp [hdeclared]
  · have hnone : (urls.reverse.find? fun url =>
        decide (url.Applies c ∧ url.port = port) && c.declaresPort port) = none := by
      rw [List.find?_eq_none]
      intro url _
      simp [-Component.declaresPort_iff, hdeclared]
    rw [hnone]
    constructor
    · intro h
      cases h
    · intro h
      exact absurd h.1 hdeclared

/-- A container's bindings cover some URLs: a port is bound if and only if it is declared and some URL
applies and leads there, and then the last such URL says which host port is bound and under which name.
The listed bindings and names are those of the bound ports, in increasing order. -/
structure Covers (ports : PortMap) (c : Component) (urls : List UrlRecord) (hostIp : String) :
    Prop where
  bound_iff : ∀ port, (∃ binding, ports.get? port = some binding) ↔
    port ∈ c.endpoints.map (·.targetPort) ∧ ∃ url ∈ urls, url.Applies c ∧ url.port = port
  binding_iff : ∀ port binding, ports.get? port = some binding ↔
    port ∈ c.endpoints.map (·.targetPort) ∧
      ∃ url : UrlRecord, url.LastAt urls c port ∧ binding = ⟨port, hostIp, url.exposedPort⟩
  name_iff : ∀ port name, (port, name) ∈ ports.names ↔
    port ∈ c.endpoints.map (·.targetPort) ∧
      ∃ url : UrlRecord, url.LastAt urls c port ∧ name = url.name
  listed : ∀ binding, binding ∈ ports.bindings ↔
    ports.get? binding.containerPort = some binding
  keys : ports.names.map (·.1) = ports.bindings.map (·.containerPort)
  increasing : (ports.bindings.map (·.containerPort)).Pairwise (· < ·)
  empty : c.endpoints = [] → ports.bindings = [] ∧ ports.names = []

theorem get?_eq_some_iff {port : Port} {binding : PortBinding} : ports.get? port = some binding ↔
    ∃ url, (port, url) ∈ ports.urls.entries ∧ ports.binding port url = binding := by
  simp only [get?, Option.map_eq_some_iff, SortedMap.get?_eq_some_iff]

/-- The bindings of a container cover its URLs. -/
theorem ofUrls_covers (h : ofUrls component c urls hostIp = .ok ports) :
    ports.Covers c urls hostIp := by
  have hhost : ports.hostIp = hostIp := (get?_ofUrls h 0).1
  have hbinding : ∀ port binding, ports.get? port = some binding ↔
      port ∈ c.endpoints.map (·.targetPort) ∧
        ∃ url : UrlRecord, url.LastAt urls c port ∧ binding = ⟨port, hostIp, url.exposedPort⟩ := by
    intro port binding
    rw [get?_eq_some_iff]
    constructor
    · rintro ⟨url, hurl, rfl⟩
      obtain ⟨hdeclared, hlast⟩ := (mem_entries_iff h).1 hurl
      exact ⟨hdeclared, url, hlast, by rw [PortMap.binding, hhost]⟩
    · rintro ⟨hdeclared, url, hlast, rfl⟩
      exact ⟨url, (mem_entries_iff h).2 ⟨hdeclared, hlast⟩, by rw [PortMap.binding, hhost]⟩
  refine ⟨?_, hbinding, ?_, ?_, ?_, ?_, ?_⟩
  · intro port
    constructor
    · rintro ⟨binding, hget⟩
      obtain ⟨hdeclared, url, ⟨before, after, rfl, happlies, hport, -⟩, -⟩ :=
        (hbinding port binding).1 hget
      exact ⟨hdeclared, url, by simp, happlies, hport⟩
    · rintro ⟨hdeclared, url, hurl, happlies, rfl⟩
      obtain ⟨last, hlast⟩ := UrlRecord.exists_lastAt hurl happlies
      exact ⟨_, (hbinding _ _).2 ⟨hdeclared, last, hlast, rfl⟩⟩
  · intro port name
    rw [names, List.mem_map]
    constructor
    · rintro ⟨⟨port, url⟩, hurl, heq⟩
      obtain ⟨rfl, rfl⟩ := Prod.mk.inj heq
      obtain ⟨hdeclared, hlast⟩ := (mem_entries_iff h).1 hurl
      exact ⟨hdeclared, url, hlast, rfl⟩
    · rintro ⟨hdeclared, url, hlast, rfl⟩
      exact ⟨(port, url), (mem_entries_iff h).2 ⟨hdeclared, hlast⟩, rfl⟩
  · intro binding
    rw [get?_eq_some_iff, bindings, List.mem_map]
    constructor
    · rintro ⟨⟨port, url⟩, hurl, rfl⟩
      exact ⟨url, hurl, rfl⟩
    · rintro ⟨url, hurl, heq⟩
      exact ⟨(binding.containerPort, url), hurl, heq⟩
  · rw [names, bindings, List.map_map, List.map_map]
    rfl
  · rw [bindings, List.map_map]
    exact List.pairwise_map.2 ports.urls.sorted
  · intro hempty
    have hnone : ports.urls.entries = [] := by
      rw [List.eq_nil_iff_forall_not_mem]
      rintro ⟨port, url⟩ hurl
      have hdeclared := ((mem_entries_iff h).1 hurl).1
      rw [hempty] at hdeclared
      cases hdeclared
    rw [bindings, names, hnone]
    exact ⟨rfl, rfl⟩

/-! ## What the bindings depend on -/

variable {urls' : List UrlRecord}

/-- Only URLs that apply matter. -/
theorem ofUrls_congr (same : applicable c urls' = applicable c urls) :
    ofUrls component c urls' hostIp = ofUrls component c urls hostIp := by
  simp only [ofUrls, stale?, bound, same]

/-- The order of URLs that apply does not matter where no two of them share a port. -/
theorem ofUrls_of_perm (perm : (applicable c urls').Perm (applicable c urls))
    (distinct : ((applicable c urls).map (·.port)).Nodup)
    (h : ofUrls component c urls hostIp = .ok ports) : ofUrls component c urls' hostIp = .ok ports := by
  have hself : ∀ us, applicable c (applicable c us) = applicable c us := fun us => by
    simp only [applicable, List.filter_filter, Bool.and_self]
  rw [← ofUrls_congr (hself urls')]
  rw [← ofUrls_congr (hself urls)] at h
  exact ofUrls_reordered (.inr ⟨perm, by rwa [hself]⟩) h

/-- **Port mapping is exact.** There are no bindings, but an error, if and only if the container declares
a port and some URL that applies leads to an undeclared one; the error names the first such URL and its
port. Otherwise the bindings cover the URLs. They stay the same where URLs that do not apply are left out
or put in, and where URLs that apply are put in another order, if no two of these share a port. All of
this holds of bindings and names that are kept in two tables and filled side by side: the two tables are
those of the bindings, and their ports are the same. -/
theorem ofUrls_exact (component : String) (c : Component) (urls : List UrlRecord) (hostIp : String) :
    ((∃ error, ofUrls component c urls hostIp = .error error) ↔
      c.endpoints ≠ [] ∧
        ∃ url ∈ urls, url.Applies c ∧ url.port ∉ c.endpoints.map (·.targetPort)) ∧
    (∀ error, ofUrls component c urls hostIp = .error error →
      ∃ url : UrlRecord, url.FirstStale urls c ∧ error = .staleUrl component url.port url.name) ∧
    (∀ ports, ofUrls component c urls hostIp = .ok ports →
      ports.Covers c urls hostIp ∧
      (∀ urls', applicable c urls' = applicable c urls →
        ofUrls component c urls' hostIp = .ok ports) ∧
      ∀ urls', (applicable c urls').Perm (applicable c urls) →
        ((applicable c urls).map (·.port)).Nodup → ofUrls component c urls' hostIp = .ok ports) ∧
    PortTables.ofUrls component c urls hostIp = (ofUrls component c urls hostIp).map tables ∧
    ∀ t, PortTables.ofUrls component c urls hostIp = .ok t → t.names.keys = t.bindings.keys := by
  refine ⟨exists_error_iff, fun error => ofUrls_error_iff.1, fun ports h => ⟨ofUrls_covers h, ?_, ?_⟩,
    tables_ofUrls, fun t => keys_tables_ofUrls⟩
  · intro urls' same
    rw [ofUrls_congr same, h]
  · intro urls' perm distinct
    exact ofUrls_of_perm perm distinct h

end PortMap

end DevfilePush
