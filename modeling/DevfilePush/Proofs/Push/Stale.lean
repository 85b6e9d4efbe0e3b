import DevfilePush.Proofs.Container.Exposure
import DevfilePush.Proofs.Container.Failure
import DevfilePush.Proofs.Push.Errors

/-!
# What a stale URL tells

A push ends with the error of a stale URL at the first container that has endpoints, but none at the port
of a URL that applies to it. If the URL is meant for one container only, or if no other container has
endpoints, then its port is not declared at all. A URL that is meant for all containers may lead to a
port that another one declares: what the error says of the devfile is not so then
(`Push.not_always_undeclared`).

## Main definitions

* `Push.StaleAt`: the URL and the container at which a push gives up.

## Main statements

* `PortMap.stale?_eq_some`, `Blueprint.stale_of_desired_error`: a container with a stale URL.
* `Push.stale_url`: what is known when a push ends with this error.
-/

namespace DevfilePush

/-! ## Containers -/

/-- A stale URL applies to a container that has endpoints, but not at the URL's port. -/
theorem PortMap.stale?_eq_some {c : Component} {urls : List UrlRecord} {url : UrlRecord}
    (h : stale? c urls = some url) :
    c.endpoints ≠ [] ∧ url ∈ urls ∧ url.appliesTo c = true ∧
      url.port ∉ c.endpoints.map (·.targetPort) := by
  unfold stale? at h
  by_cases hempty : c.endpoints = []
  · simp [hempty] at h
  · rw [if_neg (by simpa using hempty)] at h
    obtain ⟨hmem, happlies⟩ := List.mem_filter.1 (List.mem_of_find?_eq_some h)
    have hundeclared := List.find?_some h
    rw [Bool.not_eq_true', ← Bool.not_eq_true, Component.declaresPort_iff] at hundeclared
    exact ⟨hempty, hmem, happlies, hundeclared⟩

namespace Blueprint

variable {ctx : Context} {b : Blueprint} {c : Component}

/-- No URL is stale for a container that has a definition. -/
theorem stale?_eq_none_of_desired {desired : Definition} (h : b.desired ctx c = .ok desired) :
    PortMap.stale? c b.urls = none := by
  obtain ⟨ports, hports, -⟩ := desired_ok_iff.1 h
  unfold PortMap.ofUrls at hports
  split at hports
  · cases hports
  · assumption

/-- A definition that cannot be built because of a stale URL tells of the first one. -/
theorem stale_of_desired_error {component name : String} {port : Port}
    (h : b.desired ctx c = .error (.staleUrl component port name)) :
    component = ctx.component ∧
      ∃ url, PortMap.stale? c b.urls = some url ∧ url.port = port ∧ url.name = name := by
  unfold desired PortMap.ofUrls at h
  cases hstale : PortMap.stale? c b.urls with
  | some url =>
    rw [hstale] at h
    injection h with herror
    injection herror with hcomponent hport hname
    exact ⟨hcomponent.symm, url, rfl, hport, hname⟩
  | none =>
    rw [hstale] at h
    obtain ⟨fault, -, herror⟩ := Except.mapError_error_iff.1 h
    cases herror

end Blueprint

namespace Push

variable {p : Push} {config : ValidConfig} {listing : UrlListing} {engine : Conduct}
  {before after : Holdings} {trace : List Happening} {component name : String} {port : Port}

/-! ## The push -/

/-- Where a push gives up because of a URL: at a container with endpoints that does not declare the
port of the URL, which is exposed and meant for it; no URL is stale for the containers before it. -/
structure StaleAt (p : Push) (urls : List UrlRecord) (url : UrlRecord) (here : Component) : Prop where
  listed : url ∈ urls
  exposed : url.exposedPort ≠ 0
  meant : url.MeantFor here
  listens : here.endpoints ≠ []
  undeclared : url.port ∉ here.endpoints.map (·.targetPort)
  first : ∃ done rest, p.components = done ++ here :: rest ∧ ∀ c ∈ done, PortMap.stale? c urls = none

/-- An error of this category comes from reconciling containers. -/
theorem realize_of_portMapping {error : PushError}
    (run : (p.script config listing).Runs engine before trace (.error error) after)
    (hcategory : error.category = .portMapping) :
    p.check = .ok () ∧ ∃ urls names middle own, listing.urls = .ok urls ∧
      ((p.blueprint urls names).realize (p.context config)).Runs engine middle own (.error error)
        after := by
  have hanswer : ∀ e : PushError, e.FromAnswer → e.category ≠ .portMapping := by
    rintro e (h | h | h) <;> rw [h] <;> nofun
  generalize hverdict : Except.error error = verdict at run
  cases script_proceeding run with
  | @checking e failed =>
    obtain rfl := Except.error.inj hverdict
    have hhead : (p.failures listing).head? = some error := by rw [head?_failures, failed]
    rw [category_of_mem_failures (List.mem_of_head? hhead)] at hcategory
    cases hcategory
  | loading =>
    obtain rfl := Except.error.inj hverdict
    cases hcategory
  | resolving _ _ failed =>
    obtain rfl := Except.error.inj hverdict
    exact absurd hcategory (hanswer _ ((resolveVolumes_ends _ _).of_error failed))
  | reconciling passed loaded _ failed =>
    obtain rfl := Except.error.inj hverdict
    exact ⟨passed, _, _, _, _, loaded, failed⟩
  | executing passed _ _ _ ended =>
    obtain rfl := hverdict
    refine absurd hcategory (execution_error hanswer passed ?_ ended)
    intro live middle _ gc _ e he
    rw [category_of_target he]
    nofun

/-- Reconciling containers ends with this error only at a container with a stale URL. -/
theorem staleAt_of_realize {urls : List UrlRecord} {names : VolumeNames} (passed : p.check = .ok ())
    (run : ((p.blueprint urls names).realize (p.context config)).Runs engine before trace
      (.error (.staleUrl component port name)) after) :
    component = p.component ∧ ∃ url here, url.port = port ∧ url.name = name ∧
      p.StaleAt urls url here := by
  obtain ⟨done, here, rest, records, middle, t, own, hcomponents, hdone, hhere, -⟩ :=
    Blueprint.realize_failed (check_ok_iff.1 passed).1 run
  have hhereEnds : ((p.blueprint urls names).realizeOne (p.context config) here).Ends
      (fun e => e.FromAnswer ∨
        (p.blueprint urls names).desired (p.context config) here = .error e) _ :=
    Blueprint.realizeOne_ends (fun _ => .inl) (fun _ => .inr)
  rcases hhereEnds.of_error hhere with hanswer | hundesired
  · rcases hanswer with h | h | h <;> cases h
  · obtain ⟨hcomponent, url, hstale, hport, hname⟩ := Blueprint.stale_of_desired_error hundesired
    obtain ⟨hlistens, hlisted, happlies, hundeclared⟩ := PortMap.stale?_eq_some hstale
    obtain ⟨hexposed, hmeant⟩ := UrlRecord.appliesTo_iff.1 happlies
    have hbefore : ∀ c ∈ done, PortMap.stale? c urls = none := by
      have hdoneEnds : ((p.blueprint urls names).realizeEach (p.context config) done).Ends
          (fun _ => True) _ :=
        Blueprint.realizeEach_ends (fun _ _ => trivial) (fun _ _ _ _ => trivial)
      intro c hc
      obtain ⟨desired, h⟩ := hdoneEnds.of_ok hdone c hc
      exact Blueprint.stale?_eq_none_of_desired h
    exact ⟨hcomponent, url, here, hport, hname, hlisted, hexposed, hmeant, hlistens, hundeclared,
      done, rest, hcomponents, hbefore⟩

/-- The port of a stale URL is declared by none of the containers that it is meant for, if it is meant
for one of them only or if no other container has endpoints. -/
theorem StaleAt.nowhere {urls : List UrlRecord} {url : UrlRecord} {here : Component}
    (stale : p.StaleAt urls url here) (passed : p.check = .ok ())
    (alone : url.container ≠ none ∨ ∀ c ∈ p.components, c.endpoints ≠ [] → c = here) :
    ∀ c ∈ p.components, url.MeantFor c → url.port ∉ c.endpoints.map (·.targetPort) := by
  intro c hc hmeant hdeclared
  have hhere : here ∈ p.components := by
    obtain ⟨done, rest, hcomponents, -⟩ := stale.first
    simp [hcomponents]
  have hsame : c = here := by
    rcases alone with hrestricted | hsingle
    · have halias : c.aliasName = here.aliasName := by
        have hc' := hmeant.resolve_left hrestricted
        have hhere' := stale.meant.resolve_left hrestricted
        exact Option.some.inj (hc'.symm.trans hhere')
      have hnodup := (checkComponents_ok_iff.1 (check_ok_iff.1 passed).1).2.2
      exact List.inj_on_of_nodup_map hnodup hc hhere halias
    · apply hsingle c hc
      intro hempty
      simp [hempty] at hdeclared
  exact stale.undeclared (hsame ▸ hdeclared)

/-- **Stale URLs.** Whatever the engine does, if a push ends with the error of a stale URL, one of the
loaded URLs has the name and the port that are told. It is exposed, and it is meant for a container that
has endpoints but not at this port; no URL is stale for the containers declared before. If it is meant
for this container only, or if no other container has endpoints, then none of the containers that it is
meant for declares the port. -/
theorem stale_url
    (run : (p.script config listing).Runs engine before trace
      (.error (.staleUrl component port name)) after) :
    component = p.component ∧ ∃ urls url here, listing.urls = .ok urls ∧ url.port = port ∧
      url.name = name ∧ p.StaleAt urls url here ∧
      ((url.container ≠ none ∨ ∀ c ∈ p.components, c.endpoints ≠ [] → c = here) →
        ∀ c ∈ p.components, url.MeantFor c → port ∉ c.endpoints.map (·.targetPort)) := by
  obtain ⟨passed, urls, names, middle, own, loaded, failed⟩ := realize_of_portMapping run rfl
  obtain ⟨hcomponent, url, here, rfl, hname, stale⟩ := staleAt_of_realize passed failed
  exact ⟨hcomponent, urls, url, here, loaded, rfl, hname, stale, stale.nowhere passed⟩

/-! ## Two pushes with a stale URL -/

/-- A URL that is meant for the one container only, at a port that it does not declare. -/
def sampleGone : UrlListing := ⟨[], .ok [⟨"store", 5432, 40003, some "web"⟩]⟩

/-- The course of a push with this URL. -/
def sampleGoneCourse : Course PushReport := (sample.script .standard sampleGone).follow .empty []

/-- The URL's port is not declared by the container that it is meant for. -/
theorem stale_url_sample :
    sampleGoneCourse.verdict = .error (.staleUrl "shop" 5432 "store") ∧
      ∃ url here, sample.StaleAt [⟨"store", 5432, 40003, some "web"⟩] url here ∧
        ∀ c ∈ sample.components, url.MeantFor c → 5432 ∉ c.endpoints.map (·.targetPort) := by
  have hverdict : sampleGoneCourse.verdict = .error (.staleUrl "shop" 5432 "store") := by rfl
  have hrun : (sample.script .standard sampleGone).Runs MemoryEngine.faulty ⟨[], []⟩
      sampleGoneCourse.happenings (.error (.staleUrl "shop" 5432 "store"))
      sampleGoneCourse.engine.holdings :=
    MemoryEngine.runs_follow_faulty MemoryEngine.numbered_empty hverdict
  obtain ⟨-, urls, url, here, hurls, -, -, stale, hnowhere⟩ := stale_url hrun
  obtain rfl := Except.ok.inj hurls
  obtain rfl := List.mem_singleton.1 stale.listed
  exact ⟨hverdict, _, here, stale, hnowhere (.inl nofun)⟩

/-- A push of two containers that both have endpoints, at different ports. -/
def sampleListening : Push :=
  { sample with
    components := [sampleComponent,
      { Component.ofImage "db" "postgres:16" with endpoints := [⟨"sql", 5432⟩] }] }

/-- A URL for all containers, at a port of the first. -/
def sampleFront : UrlListing := ⟨[], .ok [⟨"front", 8080, 40000, none⟩]⟩

/-- The course of a push of both containers with this URL. -/
def sampleFrontCourse : Course PushReport :=
  (sampleListening.script .standard sampleFront).follow .empty []

/-- The second container does not declare the port of the URL, so the push ends as if the URL were
stale, although it has just been bound to the first container, which declares that port. -/
theorem not_always_undeclared :
    ¬ ∀ {p : Push} {config : ValidConfig} {listing : UrlListing} {engine : Conduct}
      {before after : Holdings} {trace : List Happening} {component name : String} {port : Port},
      (p.script config listing).Runs engine before trace (.error (.staleUrl component port name))
        after →
      ∃ urls, listing.urls = .ok urls ∧ ∃ url ∈ urls, url.port = port ∧ url.name = name ∧
        ∀ c ∈ p.components, url.MeantFor c → port ∉ c.endpoints.map (·.targetPort) := by
  intro h
  have hrun : (sampleListening.script .standard sampleFront).Runs MemoryEngine.faulty ⟨[], []⟩
      sampleFrontCourse.happenings (.error (.staleUrl "shop" 8080 "front"))
      sampleFrontCourse.engine.holdings :=
    MemoryEngine.runs_follow_faulty MemoryEngine.numbered_empty (by rfl)
  obtain ⟨urls, hurls, url, hurl, -, -, hundeclared⟩ := h hrun
  obtain rfl := Except.ok.inj hurls
  obtain rfl := List.mem_singleton.1 hurl
  exact hundeclared sampleComponent List.mem_cons_self (.inl rfl) (by decide)

end Push

end DevfilePush
