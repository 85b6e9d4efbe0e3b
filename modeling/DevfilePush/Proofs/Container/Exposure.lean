import DevfilePush.Proofs.Container.Rearranged

/-!
# What a definition exposes

A definition binds host ports on the configured address alone, and each of them leads to a declared port
as one of the URLs says that are meant for the container. No container port is bound twice: of several
URLs at one port the last counts, and the label at that port is this URL's name. Ports that are not bound
have no label.

## Main definitions

* `Address.Local`: the addresses that lead back to the host itself.
* `UrlRecord.MeantFor`: the containers that a URL is for.
* `PortBinding.Follows`: a binding that a URL asks for.
* `Definition.Exposes`: a definition whose bindings and port labels come from URLs.

## Main statements

* `ValidConfig.exists_local`: the address of an accepted configuration.
* `PortMap.get?_ofUrls`: the URL that is bound at a port.
* `Blueprint.desired_exposes`: what a container has to be running exposes it so.
-/

namespace DevfilePush

/-! ## Addresses -/

namespace Address

theorem octet?_lt {cs : List Char} {n : Nat} (h : octet? cs = some n) : n < 256 := by
  unfold octet? at h
  split at h
  · cases h
  · simpa using (Option.filter_eq_some_iff.1 h).2

/-- Each part that is read as an octet gives a number below 256. -/
theorem mapM_octet? {parts : List (List Char)} {octets : List Nat}
    (h : parts.mapM octet? = some octets) :
    octets.length = parts.length ∧ ∀ n ∈ octets, n < 256 := by
  induction parts generalizing octets with
  | nil =>
    obtain rfl : [] = octets := by simpa using h
    simp
  | cons part parts ih =>
    simp only [List.mapM_cons, Option.bind_eq_bind, Option.bind_eq_some_iff] at h
    obtain ⟨n, hn, rest, hrest, hoctets⟩ := h
    obtain rfl := Option.some.inj hoctets
    obtain ⟨hlength, hbelow⟩ := ih hrest
    exact ⟨by simp [hlength], List.forall_mem_cons.2 ⟨octet?_lt hn, hbelow⟩⟩

/-- Octets between points are four numbers below 256. -/
theorem octets?_eq_some {cs : List Char} {octets : List Nat} (h : octets? cs = some octets) :
    octets.length = 4 ∧ ∀ n ∈ octets, n < 256 := by
  by_cases hparts : (split '.' cs).length = 4
  · have h' : (split '.' cs).mapM octet? = some octets := by simpa [octets?, hparts] using h
    obtain ⟨hlength, hbelow⟩ := mapM_octet? h'
    exact ⟨hlength.trans hparts, hbelow⟩
  · simp [octets?, hparts] at h

/-- Groups between colons are an address of the second kind. -/
theorem v6?_eq_some {cs : List Char} {address : Address} (h : v6? cs = some address) :
    ∃ groups, address = .v6 groups := by
  unfold v6? at h
  cases hgap : gap? cs with
  | none =>
    simp only [hgap, Option.bind_eq_bind, Option.bind_eq_some_iff] at h
    obtain ⟨groups, -, h⟩ := h
    split at h
    · exact ⟨_, (Option.some.inj h).symm⟩
    · cases h
  | some parts =>
    simp only [hgap, Option.bind_eq_bind, Option.bind_eq_some_iff] at h
    obtain ⟨head, -, tail, -, h⟩ := h
    split at h
    · exact ⟨_, (Option.some.inj h).symm⟩
    · cases h

/-- One of the addresses 127.0.0.0/8, or ::1. -/
def Local (address : Address) : Prop :=
  (∃ b c d, b < 256 ∧ c < 256 ∧ d < 256 ∧ address = .v4 [127, b, c, d]) ∨
    address = .v6 [0, 0, 0, 0, 0, 0, 0, 1]

/-- What is read as a loopback address is one of these. -/
theorem local_of_isLoopback {text : String} {address : Address} (h : ofText? text = some address)
    (loopback : address.isLoopback = true) : address.Local := by
  unfold ofText? at h
  cases hoctets : octets? text.toList with
  | some octets =>
    rw [hoctets] at h
    obtain rfl := Option.some.inj h
    obtain ⟨hlength, hbelow⟩ := octets?_eq_some hoctets
    match octets, hlength with
    | [a, b, c, d], _ =>
      have ha : a = 127 := by simpa [isLoopback] using loopback
      simp only [List.forall_mem_cons] at hbelow
      exact .inl ⟨b, c, d, hbelow.2.1, hbelow.2.2.1, hbelow.2.2.2.1, by rw [ha]⟩
  | none =>
    rw [hoctets] at h
    obtain ⟨groups, rfl⟩ := v6?_eq_some h
    exact .inr (congrArg Address.v6 (of_decide_eq_true loopback))

end Address

/-- The host address of an accepted configuration leads back to the host itself. -/
theorem ValidConfig.exists_local (config : ValidConfig) :
    ∃ address, Address.ofText? config.config.hostIp = some address ∧ address.Local := by
  have hlocal : config.config.isLocal = true := by
    by_contra hnot
    have hrefused := config.accepted
    rw [Config.check, if_pos (by simpa using hnot)] at hrefused
    cases hrefused
  obtain ⟨address, haddress, loopback⟩ := (Option.any_eq_true _ _).1 hlocal
  exact ⟨address, haddress, Address.local_of_isLoopback haddress loopback⟩

/-! ## Bindings -/

/-- A URL is meant for a container: for all of them, or for the one of its alias. -/
def UrlRecord.MeantFor (url : UrlRecord) (c : Component) : Prop :=
  url.container = none ∨ url.container = some c.aliasName

/-- A URL applies to a container if it is exposed and meant for it. -/
theorem UrlRecord.appliesTo_iff {url : UrlRecord} {c : Component} :
    url.appliesTo c = true ↔ url.exposedPort ≠ 0 ∧ url.MeantFor c := by
  cases hcontainer : url.container <;> simp [appliesTo, MeantFor, hcontainer]

/-- A binding that a URL asks for: it exposes a declared port of a container that the URL is meant for,
on this host address. -/
structure PortBinding.Follows (b : PortBinding) (url : UrlRecord) (c : Component) (hostIp : String) :
    Prop where
  hostIp : b.hostIp = hostIp
  containerPort : b.containerPort = url.port
  hostPort : b.hostPort = url.exposedPort
  declared : b.containerPort ∈ c.endpoints.map (·.targetPort)
  exposed : b.hostPort ≠ 0
  meant : url.MeantFor c

namespace PortMap

variable {c : Component} {urls : List UrlRecord} {component hostIp : String} {ports : PortMap}

theorem hostIp_foldl_bind (m : PortMap) (urls : List UrlRecord) :
    (urls.foldl bind m).hostIp = m.hostIp := by
  induction urls generalizing m with
  | nil => rfl
  | cons url urls ih => rw [List.foldl_cons, ih, hostIp_bind]

/-- Of several URLs at one port the last is bound. -/
theorem get?_foldl_bind (m : PortMap) (urls : List UrlRecord) (port : Port) :
    (urls.foldl bind m).urls.get? port =
      (urls.reverse.find? (·.port = port)).or (m.urls.get? port) := by
  induction urls generalizing m with
  | nil => rfl
  | cons url urls ih =>
    have hbind : (m.bind url).urls.get? port =
        (([url].find? (·.port = port)).or (m.urls.get? port)) := by
      by_cases hport : url.port = port
      · simp [bind, hport]
      · simp [bind, hport, Ne.symm hport]
    rw [List.foldl_cons, ih, hbind, List.reverse_cons, List.find?_append, Option.or_assoc]

/-- What is bound is meant for the container and leads to a declared port. -/
theorem mem_bound {url : UrlRecord} (h : url ∈ bound c urls) :
    url ∈ urls ∧ url.appliesTo c = true ∧ c.declaresPort url.port = true := by
  have happlicable : url ∈ applicable c urls := (List.takeWhile_sublist _).subset h
  have hdeclared := List.mem_takeWhile_imp h
  obtain ⟨hmem, happlies⟩ := List.mem_filter.1 happlicable
  exact ⟨hmem, happlies, hdeclared⟩

/-- The bindings of a container are those of its bound URLs, the last at each port. -/
theorem get?_ofUrls (h : ofUrls component c urls hostIp = .ok ports) (port : Port) :
    ports.hostIp = hostIp ∧
      ports.urls.get? port = (bound c urls).reverse.find? (·.port = port) := by
  unfold ofUrls at h
  cases hstale : stale? c urls with
  | some url => simp [hstale] at h
  | none =>
    obtain rfl : (bound c urls).foldl bind (empty hostIp) = ports := by simpa [hstale] using h
    refine ⟨hostIp_foldl_bind _ _, ?_⟩
    rw [get?_foldl_bind]
    exact Option.or_none

/-- A bound port is bound as a URL asks for that is meant for the container. -/
theorem follows_of_mem (h : ofUrls component c urls hostIp = .ok ports) {port : Port}
    {url : UrlRecord} (hmem : (port, url) ∈ ports.urls.entries) :
    url ∈ urls ∧ (ports.binding port url).Follows url c hostIp := by
  obtain ⟨haddress, hget⟩ := get?_ofUrls h port
  rw [SortedMap.get?_eq_some_iff.2 hmem, eq_comm] at hget
  have hport : url.port = port := by simpa using List.find?_some hget
  have hbound : url ∈ bound c urls := List.mem_reverse.1 (List.mem_of_find?_eq_some hget)
  obtain ⟨hurls, happlies, hdeclared⟩ := mem_bound hbound
  obtain ⟨hexposed, hmeant⟩ := UrlRecord.appliesTo_iff.1 happlies
  have hdeclares : port ∈ c.endpoints.map (·.targetPort) :=
    Component.declaresPort_iff.1 (hport ▸ hdeclared)
  exact ⟨hurls, haddress, hport.symm, rfl, hdeclares, hexposed, hmeant⟩

end PortMap

/-! ## Definitions -/

/-- A definition exposes a container as URLs ask for: each binding follows one whose name is the label at
the bound port, the bound ports increase, and the number of no other port is a label. -/
structure Definition.Exposes (d : Definition) (c : Component) (urls : List UrlRecord)
    (hostIp : String) : Prop where
  bound : ∀ b ∈ d.host.portBindings, b.containerPort ∈ d.config.exposedPorts ∧
    ∃ url ∈ urls, b.Follows url c hostIp ∧
      d.config.labels.get? (toString b.containerPort.toNat) = some url.name
  increasing : d.host.portBindings.Pairwise fun a b => a.containerPort < b.containerPort
  unbound : ∀ n : Nat, (∀ b ∈ d.host.portBindings, b.containerPort.toNat ≠ n) →
    d.config.labels.get? (toString n) = none

variable {ctx : Context} {b : Blueprint} {c : Component} {desired : Definition}

/-- **Exposure.** What a container has to be running exposes it as the URLs ask for. -/
theorem Blueprint.desired_exposes (h : b.desired ctx c = .ok desired) :
    desired.Exposes c b.urls ctx.config.hostIp := by
  obtain ⟨ports, hports, hbuild⟩ := desired_ok_iff.1 h
  obtain ⟨storage, supervisor, -, -, rfl⟩ := Definition.build_ok_iff.1 hbuild
  refine ⟨?_, List.pairwise_map.2 ports.urls.sorted, ?_⟩
  · intro binding hbinding
    obtain ⟨⟨port, url⟩, hmem, rfl⟩ := List.mem_map.1 hbinding
    obtain ⟨hurl, hfollows⟩ := PortMap.follows_of_mem hports hmem
    exact ⟨hfollows.declared, url, hurl, hfollows, Surroundings.get?_labels_of_bound hmem⟩
  · intro n hn
    have hunbound : toString n ∉ ports.labels.map (·.1) := by
      rw [PortMap.toString_mem_keys_labels]
      rintro ⟨_, hport, hnumber⟩
      obtain ⟨⟨port, url⟩, hmem, rfl⟩ := List.mem_map.1 hport
      exact hn (ports.binding port url) (List.mem_map.2 ⟨(port, url), hmem, rfl⟩) hnumber
    rw [Surroundings.get?_labels_of_unbound hunbound, Labels.get?_ofContainer_toString]

end DevfilePush
