import DevfilePush.Proofs.Container.Rearranged

/-!
# The first offence

A list of containers that is not accepted is refused for the first thing that is wrong with it. What is
wrong is laid down here without the checks: a container is met when all those before it are well formed
and have aliases of their own, and a variable when all those before it have names of their own.

## Main definitions

* `EnvVar.Offends`, `Component.Offends`: what is wrong first with a variable, and with a container.
* `FirstOffence`: what is wrong first with a list of containers.

## Main statements

* `checkComponents_error_iff`: the first offence is what a list is refused for.
* `checkComponents_ok_iff_of_rearranged`: the verdict does not depend on the order of what is declared.
* `checkComponents_exact`: both, with the lists that are accepted.
-/

namespace DevfilePush

/-- What is wrong with a variable that comes after others: it has no name, or else the name of one of
them. -/
inductive EnvVar.Offends (e : EnvVar) (earlier : List EnvVar) (aliasName : String) : InvalidValue → Prop
  | unnamed (h : e.name = "") : e.Offends earlier aliasName (.emptyEnvName aliasName)
  | repeated (named : e.name ≠ "") (h : ∃ d ∈ earlier, d.name = e.name) :
      e.Offends earlier aliasName (.repeatedEnv aliasName e.name)

/-- What is wrong first with a container: with its alias, or else with its image, or else with the first
variable at fault. -/
inductive Component.Offends (c : Component) : InvalidValue → Prop
  | noAlias (h : c.aliasName = "") : c.Offends .emptyAlias
  | noImage (named : c.aliasName ≠ "") (h : c.image = "") : c.Offends (.noImage c.aliasName)
  | env (named : c.aliasName ≠ "") (imaged : c.image ≠ "") {earlier later : List EnvVar} {e : EnvVar}
      (split : c.env = earlier ++ e :: later) (fine : ∀ d ∈ earlier, d.name ≠ "")
      (distinct : (earlier.map (·.name)).Nodup) {cause : InvalidValue}
      (h : e.Offends earlier c.aliasName cause) : c.Offends cause

/-- What is wrong with the first container at fault: with the container itself, or else its alias is that
of an earlier one. -/
inductive FirstOffence (components : List Component) : InvalidValue → Prop
  | within {earlier later : List Component} {c : Component} (split : components = earlier ++ c :: later)
      (fine : ∀ d ∈ earlier, d.WellFormed) (distinct : (earlier.map (·.aliasName)).Nodup)
      {cause : InvalidValue} (h : c.Offends cause) : FirstOffence components cause
  | repeated {earlier later : List Component} {c : Component}
      (split : components = earlier ++ c :: later)
      (fine : ∀ d ∈ earlier, d.WellFormed) (distinct : (earlier.map (·.aliasName)).Nodup)
      (wellFormed : c.WellFormed) (h : ∃ d ∈ earlier, d.aliasName = c.aliasName) :
      FirstOffence components (.repeatedAlias c.aliasName)

variable {c c' : Component} {components components' : List Component} {cause : InvalidValue}

/-! ## What is told -/

theorem EnvVar.offends_iff {e : EnvVar} {earlier : List EnvVar} {aliasName : String} :
    e.Offends earlier aliasName cause ↔
      e.check aliasName = .error cause ∨
        e.check aliasName = .ok () ∧ e.name ∈ earlier.map (·.name) ∧
          cause = .repeatedEnv aliasName e.name := by
  unfold EnvVar.check
  constructor
  · rintro (hunnamed | ⟨hnamed, hrepeated⟩)
    · simp [hunnamed]
    · simpa [hnamed] using hrepeated
  · by_cases hname : e.name = ""
    · rw [if_pos hname]
      rintro (h | ⟨h, -⟩)
      · exact Except.error.inj h ▸ .unnamed hname
      · cases h
    · rw [if_neg hname]
      rintro (h | ⟨-, hmem, rfl⟩)
      · cases h
      · exact .repeated hname (List.mem_map.1 hmem)

theorem checkEnv_error_iff {aliasName : String} {env : List EnvVar} :
    checkEnv aliasName [] env = .error cause ↔
      ∃ earlier e later, env = earlier ++ e :: later ∧
        ((∀ d ∈ earlier, d.name ≠ "") ∧ (earlier.map (·.name)).Nodup) ∧
        e.Offends earlier aliasName cause := by
  simp only [checkEnv_eq_checkNew, checkNew_error_iff, ← checkEnv_ok_iff aliasName,
    EnvVar.offends_iff, List.not_mem_nil, false_or]

/-- A container is refused for what is wrong with it first. -/
theorem Component.check_error_iff : c.check = .error cause ↔ c.Offends cause := by
  unfold Component.check
  constructor
  · intro h
    split at h
    · exact Except.error.inj h ▸ .noAlias ‹_›
    split at h
    · exact Except.error.inj h ▸ .noImage ‹_› ‹_›
    obtain ⟨earlier, e, later, hsplit, ⟨hfine, hdistinct⟩, he⟩ := checkEnv_error_iff.1 h
    exact .env ‹_› ‹_› hsplit hfine hdistinct he
  · intro h
    cases h with
    | noAlias h => rw [if_pos h]
    | noImage named h => rw [if_neg named, if_pos h]
    | env named imaged split fine distinct h =>
      rw [if_neg named, if_neg imaged]
      exact checkEnv_error_iff.2 ⟨_, _, _, split, ⟨fine, distinct⟩, h⟩

theorem checkEach_error_iff : checkEach [] components = .error cause ↔ FirstOffence components cause := by
  simp only [checkEach_eq_checkNew, checkNew_error_iff, List.not_mem_nil, false_or]
  simp only [← checkEach_eq_checkNew, checkEach_ok_iff, Component.check_ok_iff,
    Component.check_error_iff]
  constructor
  · rintro ⟨earlier, c, later, hsplit, ⟨hfine, hdistinct⟩, hc | ⟨hc, hmem, rfl⟩⟩
    · exact .within hsplit hfine hdistinct hc
    · exact .repeated hsplit hfine hdistinct hc (List.mem_map.1 hmem)
  · intro h
    cases h with
    | within split fine distinct h => exact ⟨_, _, _, split, ⟨fine, distinct⟩, .inl h⟩
    | repeated split fine distinct wellFormed h =>
      exact ⟨_, _, _, split, ⟨fine, distinct⟩, .inr ⟨wellFormed, List.mem_map.2 h, rfl⟩⟩

/-- A list without containers is refused as a mistake in what is declared, any other for its first
offence. -/
theorem checkComponents_error_iff {error : PushError} :
    checkComponents components = .error error ↔
      components = [] ∧ error = .misconfigured .noComponents ∨
        ∃ cause, error = .invalid cause ∧ FirstOffence components cause := by
  unfold checkComponents
  cases components with
  | nil =>
    have none_first : ∀ cause, ¬ FirstOffence [] cause := by
      rintro cause (⟨split, -, -, -⟩ | ⟨split, -, -, -, -⟩) <;> simp at split
    simp [none_first, eq_comm]
  | cons c rest =>
    rw [if_neg (by simp), Except.mapError_error_iff]
    simp only [checkEach_error_iff, reduceCtorEq, false_and, false_or, and_comm, @eq_comm _ error]

/-! ## The order of what is declared -/

theorem Component.Rearranges.symm (same : c'.Rearranges c) : c.Rearranges c' where
  aliasName := same.aliasName.symm
  image := same.image.symm
  command := same.command.symm
  args := same.args.symm
  mountSources := same.mountSources.symm
  env := same.env.symm
  endpoints := same.endpoints.symm
  volumeMounts := same.volumeMounts.symm

/-- Containers in any order, each with its variables, endpoints and mounts in any order, are accepted or
refused alike. -/
theorem checkComponents_ok_iff_of_rearranged {permuted : List Component}
    (perm : permuted.Perm components)
    (same : List.Forall₂ (fun c' c => c'.Rearranges c) components' permuted) :
    checkComponents components' = .ok () ↔ checkComponents components = .ok () := by
  have hinner : (components' ≠ [] ↔ permuted ≠ []) ∧
      ((∀ c ∈ components', c.WellFormed) ↔ ∀ c ∈ permuted, c.WellFormed) ∧
      components'.map (·.aliasName) = permuted.map (·.aliasName) := by
    clear perm
    induction same with
    | nil => simp
    | cons hc _ ih =>
      obtain ⟨-, hformed, haliases⟩ := ih
      refine ⟨by simp, ?_, by rw [List.map_cons, List.map_cons, hc.aliasName, haliases]⟩
      rw [List.forall_mem_cons, List.forall_mem_cons, hformed]
      exact and_congr_left' ⟨hc.symm.wellFormed, hc.wellFormed⟩
  obtain ⟨hnonempty, hformed, haliases⟩ := hinner
  have hempty : permuted = [] ↔ components = [] := by
    rw [← List.length_eq_zero_iff, perm.length_eq, List.length_eq_zero_iff]
  rw [checkComponents_ok_iff, checkComponents_ok_iff, hnonempty, hformed, haliases,
    (perm.map _).nodup_iff]
  simp only [ne_eq, hempty, perm.mem_iff]

/-- **Checking containers is exact.** A list of containers is accepted if and only if it is not empty, each
container has an alias and an image and its variables have names of their own, and the aliases differ; so
the order of the containers, and of what each of them lists, makes no difference. A list without containers
is refused as a mistake in what is declared, and any other that is not accepted is refused for its first
offence. -/
theorem checkComponents_exact (components : List Component) :
    (checkComponents components = .ok () ↔
      components ≠ [] ∧
        (∀ c ∈ components, c.aliasName ≠ "" ∧ c.image ≠ "" ∧ (∀ e ∈ c.env, e.name ≠ "") ∧
          (c.env.map (·.name)).Nodup) ∧
        (components.map (·.aliasName)).Nodup) ∧
    (∀ permuted components', permuted.Perm components →
      List.Forall₂ (fun c' c => c'.Rearranges c) components' permuted →
      (checkComponents components' = .ok () ↔ checkComponents components = .ok ())) ∧
    ∀ error, checkComponents components = .error error ↔
      components = [] ∧ error = .misconfigured .noComponents ∨
        ∃ cause, error = .invalid cause ∧ FirstOffence components cause := by
  refine ⟨?_, fun _ _ => checkComponents_ok_iff_of_rearranged, fun _ => checkComponents_error_iff⟩
  simp only [checkComponents_ok_iff, Component.wellFormed_iff]

/-- Of a repeated variable, a missing image and a repeated alias, it is the variable that is told of, as
its container comes first. -/
example :
    checkComponents [.ofImage "web" "nginx",
      { Component.ofImage "db" "postgres" with env := [⟨"PORT", "1"⟩, ⟨"HOST", ""⟩, ⟨"PORT", "2"⟩] },
      .ofImage "api" "", .ofImage "db" "redis"] = .error (.invalid (.repeatedEnv "db" "PORT")) := rfl

end DevfilePush
