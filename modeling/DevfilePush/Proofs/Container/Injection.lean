import DevfilePush.Proofs.Container.Desired

/-!
# What building adds to a declaration

A definition keeps what is declared and adds to it. Variables are added after the declared ones, under
names that are not declared; mounts are added after the declared ones; and only where no entrypoint is
declared at all does the supervisor become one. What is added on account of the run command is added in
the container that it runs in and nowhere else.

## Main definitions

* `Surroundings.Targets`: the run command runs in a container.
* `Surroundings.Adds`: the variables that are added.
* `Definition.Extends`: a definition keeps what is declared and adds what is called for.

## Main statements

* `Surroundings.exists_storageMounts_iff`, `Surroundings.exists_supervisorMounts_iff`: when there are
  mounts.
* `Definition.build_congr`: a container that no run command targets does not depend on it.
* `Definition.build_exact`: what is built, when building fails and what it does not depend on.
-/

namespace DevfilePush

open Conventions

/-- The run command is there and runs in this container. -/
def Surroundings.Targets (inputs : Surroundings) (run : Command) (c : Component) : Prop :=
  inputs.runCommand = some run ∧ run.component = c.aliasName

/-- A variable that is added to those of a container: it is not declared, and it tells of the run command
that targets the container, of this command's working directory or of the project source. -/
inductive Surroundings.Adds (inputs : Surroundings) (c : Component) : String × String → Prop
  | run {run : Command} (targets : inputs.Targets run c)
      (undeclared : runVariable ∉ c.env.map (·.name)) :
      inputs.Adds c (runVariable, run.commandLine)
  | runDirectory {run : Command} {dir : String} (targets : inputs.Targets run c)
      (named : run.workingDir = some dir) (nonempty : dir ≠ "")
      (undeclared : runDirectoryVariable ∉ c.env.map (·.name)) :
      inputs.Adds c (runDirectoryVariable, dir)
  | projects (mounted : c.mountSources = true)
      (undeclared : projectsVariable ∉ c.env.map (·.name)) :
      inputs.Adds c (projectsVariable, projectsPath)

/-- A definition keeps what is declared of a container and adds what is called for. -/
structure Definition.Extends (d : Definition) (inputs : Surroundings) (c : Component) : Prop where
  /-- No two variables have one name. -/
  envDistinct : (d.config.env.map (·.1)).Nodup
  /-- The declared variables come first and as they are declared. -/
  env : ∃ added, d.config.env = c.env.map (fun e => (e.name, e.value)) ++ added ∧
    (added.map (·.1)).Sublist [runVariable, runDirectoryVariable, projectsVariable] ∧
    ∀ v, v ∈ added ↔ inputs.Adds c v
  /-- The declared mounts come first, then the supervisor's, then the project source's. -/
  mounts : ∃ declared supervisor projects, d.host.mounts = declared ++ supervisor ++ projects ∧
    List.Forall₂ (fun m mount => inputs.volumes.storage.get? m.name = some mount.source ∧
      mount.target = m.containerPath) c.volumeMounts declared ∧
    (∀ run, inputs.Targets run c → ∃ source, inputs.volumes.supervisor = some source ∧
      supervisor = [⟨source, inputs.supervisor.mountPath⟩]) ∧
    ((∀ run, ¬ inputs.Targets run c) → supervisor = []) ∧
    projects =
      if c.mountSources then [⟨inputs.volumes.projectSource, projectsPath⟩] else []
  /-- Where anything is declared of the entrypoint, all of it is kept. -/
  entrypoint : c.command ≠ [] ∨ c.args ≠ [] →
    d.config.command = c.command ∧ d.config.args = c.args
  /-- Where nothing is, the supervisor is put in if the run command targets the container. -/
  supervised : c.command = [] → c.args = [] → ∀ run, inputs.Targets run c →
    d.config.command = [inputs.supervisor.binaryPath] ∧
      d.config.args = ["-c", inputs.supervisor.confFile]
  unsupervised : c.command = [] → c.args = [] → (∀ run, ¬ inputs.Targets run c) →
    d.config.command = [] ∧ d.config.args = []

namespace Surroundings

variable {inputs inputs' : Surroundings} {c : Component} {run : Command}

theorem runFor_eq_some_iff : inputs.runFor c = some run ↔ inputs.Targets run c := by
  simp [runFor, Targets, Option.filter_eq_some_iff]

theorem runFor_eq_none_iff : inputs.runFor c = none ↔ ∀ run, ¬ inputs.Targets run c := by
  simp only [Option.eq_none_iff_forall_ne_some, ne_eq, runFor_eq_some_iff]

/-! ## Variables -/

/-- What tells of a run command that targets the container. -/
theorem runEnv_of_targets (targets : inputs.Targets run c) :
    inputs.runEnv c = (runVariable, run.commandLine) ::
      (run.directory?.map fun dir => (runDirectoryVariable, dir)).toList := by
  rw [runEnv, runFor_eq_some_iff.2 targets]

theorem runEnv_of_not_targets (h : ∀ run, ¬ inputs.Targets run c) : inputs.runEnv c = [] := by
  rw [runEnv, runFor_eq_none_iff.2 h]

/-- What is added has some of three names, in this order. -/
theorem names_added_sublist :
    (((inputs.runEnv c ++ sourceEnv c).filter fun e => !c.declaresEnv e.1).map (·.1)).Sublist
      [runVariable, runDirectoryVariable, projectsVariable] := by
  have hrun : ((inputs.runEnv c).map (·.1)).Sublist [runVariable, runDirectoryVariable] := by
    by_cases h : ∃ run, inputs.Targets run c
    · obtain ⟨run, targets⟩ := h
      rw [runEnv_of_targets targets]
      cases run.directory? <;> simp
    · rw [runEnv_of_not_targets (not_exists.1 h)]
      exact List.nil_sublist _
  have hsource : ((sourceEnv c).map (·.1)).Sublist [projectsVariable] := by
    unfold sourceEnv
    split <;> simp
  refine (List.filter_sublist.map _).trans ?_
  rw [List.map_append]
  exact hrun.append hsource

/-- What is added tells of the run command or of the project source, under a name that is not declared. -/
theorem mem_added {v : String × String} :
    v ∈ (inputs.runEnv c ++ sourceEnv c).filter (fun e => !c.declaresEnv e.1) ↔ inputs.Adds c v := by
  rw [List.mem_filter, List.mem_append, Bool.not_eq_true', ← Bool.not_eq_true,
    Component.declaresEnv_iff]
  constructor
  · rintro ⟨hv | hv, undeclared⟩
    · by_cases h : ∃ run, inputs.Targets run c
      · obtain ⟨run, targets⟩ := h
        rw [runEnv_of_targets targets] at hv
        rcases List.mem_cons.1 hv with rfl | hv
        · exact .run targets undeclared
        · obtain ⟨dir, hdir, rfl⟩ := Option.map_eq_some_iff.1 (Option.mem_toList.1 hv)
          obtain ⟨named, nonempty⟩ := Option.filter_eq_some_iff.1 hdir
          exact .runDirectory targets named (by simpa using nonempty) undeclared
      · rw [runEnv_of_not_targets (not_exists.1 h)] at hv
        cases hv
    · unfold sourceEnv at hv
      split at hv
      · obtain rfl := List.mem_singleton.1 hv
        exact .projects ‹_› undeclared
      · cases hv
  · intro adds
    cases adds with
    | run targets undeclared =>
      rw [runEnv_of_targets targets]
      exact ⟨.inl List.mem_cons_self, undeclared⟩
    | @runDirectory run dir targets named nonempty undeclared =>
      have hdir : run.directory? = some dir := by
        simp [Command.directory?, named, nonempty]
      rw [runEnv_of_targets targets, hdir]
      exact ⟨.inl (by simp), undeclared⟩
    | projects mounted undeclared =>
      rw [sourceEnv, if_pos mounted]
      exact ⟨.inr (by simp), undeclared⟩

/-- Where the declared names differ, all names do. -/
theorem nodup_env (distinct : (c.env.map (·.name)).Nodup) :
    ((inputs.env c).map (·.1)).Nodup := by
  rw [env, List.map_append, List.map_map, List.nodup_append]
  refine ⟨distinct, names_added_sublist.nodup (by decide), ?_⟩
  rintro name hdeclared _ hname rfl
  obtain ⟨v, hv, rfl⟩ := List.mem_map.1 hname
  have hundeclared : c.declaresEnv v.1 = false := by simpa using (List.mem_filter.1 hv).2
  rw [← Bool.not_eq_true, Component.declaresEnv_iff] at hundeclared
  exact hundeclared hdeclared

/-! ## Mounts -/

/-- The mounts of declared volumes are one for each, at the path that is declared. -/
theorem storageMounts_ok_iff {mounts : List Mount} :
    inputs.storageMounts c = .ok mounts ↔
      List.Forall₂ (fun m mount => inputs.volumes.storage.get? m.name = some mount.source ∧
        mount.target = m.containerPath) c.volumeMounts mounts := by
  rw [storageMounts, Except.mapM_ok_iff]
  refine ⟨fun h => h.imp ?_, fun h => h.imp ?_⟩
  · intro m mount hmount
    split at hmount
    · obtain rfl := Except.ok.inj hmount
      exact ⟨‹_›, rfl⟩
    · cases hmount
  · rintro m ⟨source, target⟩ ⟨hsource, rfl⟩
    simp only [hsource]

/-- There are mounts if and only if every declared volume is resolved. -/
theorem exists_storageMounts_iff :
    (∃ mounts, inputs.storageMounts c = .ok mounts) ↔
      ∀ m ∈ c.volumeMounts, ∃ source, inputs.volumes.storage.get? m.name = some source := by
  simp only [storageMounts_ok_iff]
  induction c.volumeMounts with
  | nil => simp
  | cons m rest ih =>
    rw [List.forall_mem_cons, ← ih]
    constructor
    · rintro ⟨mounts, h⟩
      obtain ⟨mount, others, hm, hrest, rfl⟩ := List.forall₂_cons_left_iff.1 h
      exact ⟨⟨mount.source, hm.1⟩, others, hrest⟩
    · rintro ⟨⟨source, hsource⟩, others, hrest⟩
      exact ⟨⟨source, m.containerPath⟩ :: others, .cons ⟨hsource, rfl⟩ hrest⟩

/-- The supervisor's volume is mounted where the run command targets the container. -/
theorem supervisorMounts_of_targets (targets : inputs.Targets run c) {mounts : List Mount} :
    inputs.supervisorMounts c = .ok mounts ↔ ∃ source, inputs.volumes.supervisor = some source ∧
      mounts = [⟨source, inputs.supervisor.mountPath⟩] := by
  rw [supervisorMounts, runFor_eq_some_iff.2 targets]
  cases inputs.volumes.supervisor <;> simp [eq_comm]

theorem supervisorMounts_of_not_targets (h : ∀ run, ¬ inputs.Targets run c) :
    inputs.supervisorMounts c = .ok [] := by
  rw [supervisorMounts, runFor_eq_none_iff.2 h]

/-- There is what has to be mounted for the supervisor unless its volume is needed and not resolved. -/
theorem exists_supervisorMounts_iff :
    (∃ mounts, inputs.supervisorMounts c = .ok mounts) ↔
      ∀ run, inputs.Targets run c → ∃ source, inputs.volumes.supervisor = some source := by
  by_cases h : ∃ run, inputs.Targets run c
  · obtain ⟨run, targets⟩ := h
    simp only [supervisorMounts_of_targets targets]
    constructor
    · rintro ⟨mounts, source, hsource, -⟩ _ _
      exact ⟨source, hsource⟩
    · intro resolved
      obtain ⟨source, hsource⟩ := resolved run targets
      exact ⟨_, source, hsource, rfl⟩
  · rw [not_exists] at h
    exact ⟨fun _ run targets => absurd targets (h run), fun _ => ⟨[], supervisorMounts_of_not_targets h⟩⟩

/-! ## Entrypoint -/

theorem entrypoint_of_declared (h : c.command ≠ [] ∨ c.args ≠ []) :
    inputs.entrypoint c = (c.command, c.args) := by
  unfold entrypoint
  grind

theorem entrypoint_of_targets (targets : inputs.Targets run c) (hcommand : c.command = [])
    (hargs : c.args = []) :
    inputs.entrypoint c = ([inputs.supervisor.binaryPath], ["-c", inputs.supervisor.confFile]) := by
  simp [entrypoint, runFor_eq_some_iff.2 targets, hcommand, hargs]

theorem entrypoint_of_not_targets (h : ∀ run, ¬ inputs.Targets run c) :
    inputs.entrypoint c = (c.command, c.args) := by
  simp [entrypoint, runFor_eq_none_iff.2 h]

end Surroundings

namespace Definition

variable {inputs inputs' : Surroundings} {c : Component} {ports : PortMap} {d : Definition}

/-- What is built keeps what is declared and adds what is called for. -/
theorem build_extends (distinct : (c.env.map (·.name)).Nodup)
    (h : build inputs c ports = .ok d) : d.Extends inputs c := by
  obtain ⟨storage, supervisor, hstorage, hsupervisor, rfl⟩ := build_ok_iff.1 h
  constructor
  case envDistinct => exact Surroundings.nodup_env distinct
  case env =>
    exact ⟨_, rfl, Surroundings.names_added_sublist, fun v => Surroundings.mem_added⟩
  case mounts =>
    refine ⟨storage, supervisor, _, rfl, Surroundings.storageMounts_ok_iff.1 hstorage, ?_, ?_, rfl⟩
    · intro run targets
      exact (Surroundings.supervisorMounts_of_targets targets).1 hsupervisor
    · intro hnone
      rw [Surroundings.supervisorMounts_of_not_targets hnone] at hsupervisor
      exact (Except.ok.inj hsupervisor).symm
  case entrypoint =>
    intro hdeclared
    simp [Surroundings.entrypoint_of_declared hdeclared]
  case supervised =>
    intro hcommand hargs run targets
    simp [Surroundings.entrypoint_of_targets targets hcommand hargs]
  case unsupervised =>
    intro hcommand hargs hnone
    simp [Surroundings.entrypoint_of_not_targets hnone, hcommand, hargs]

/-- Building succeeds if and only if all that has to be mounted is resolved. -/
theorem exists_build_iff :
    (∃ d, build inputs c ports = .ok d) ↔
      (∀ m ∈ c.volumeMounts, ∃ source, inputs.volumes.storage.get? m.name = some source) ∧
        ∀ run, inputs.Targets run c → ∃ source, inputs.volumes.supervisor = some source := by
  rw [← Surroundings.exists_storageMounts_iff, ← Surroundings.exists_supervisorMounts_iff]
  simp only [build_ok_iff]
  constructor
  · rintro ⟨d, storage, supervisor, hstorage, hsupervisor, -⟩
    exact ⟨⟨storage, hstorage⟩, supervisor, hsupervisor⟩
  · rintro ⟨⟨storage, hstorage⟩, supervisor, hsupervisor⟩
    exact ⟨_, storage, supervisor, hstorage, hsupervisor, rfl⟩

/-- Building fails if and only if a declared volume is not resolved, or the supervisor's where it is
needed. -/
theorem exists_build_error_iff :
    (∃ fault, build inputs c ports = .error fault) ↔
      (∃ m ∈ c.volumeMounts, inputs.volumes.storage.get? m.name = none) ∨
        (∃ run, inputs.Targets run c) ∧ inputs.volumes.supervisor = none := by
  have hnot : (∃ fault, build inputs c ports = .error fault) ↔ ¬ ∃ d, build inputs c ports = .ok d := by
    cases build inputs c ports <;> simp
  rw [hnot, exists_build_iff, not_and_or]
  simp only [Option.eq_none_iff_forall_ne_some]
  push Not
  exact or_congr_right exists_and_right

/-- Where the run command does not target a container, what is built for it depends on nothing but the
component, the declared volumes and the project source. -/
theorem build_congr (component : inputs'.component = inputs.component)
    (projectSource : inputs'.volumes.projectSource = inputs.volumes.projectSource)
    (storage : inputs'.volumes.storage = inputs.volumes.storage)
    (h : ∀ run, ¬ inputs.Targets run c) (h' : ∀ run, ¬ inputs'.Targets run c) :
    build inputs' c ports = build inputs c ports := by
  have hstorage : inputs'.storageMounts c = inputs.storageMounts c := by
    simp only [Surroundings.storageMounts, storage]
  have henv : inputs'.env c = inputs.env c := by
    simp only [Surroundings.env, Surroundings.runEnv_of_not_targets h,
      Surroundings.runEnv_of_not_targets h']
  have hlabels : inputs'.labels c ports = inputs.labels c ports := by
    simp only [Surroundings.labels, component]
  have hsource : inputs'.sourceMounts c = inputs.sourceMounts c := by
    simp only [Surroundings.sourceMounts, projectSource]
  simp only [build, hstorage, henv, hlabels, hsource, Surroundings.supervisorMounts_of_not_targets h,
    Surroundings.supervisorMounts_of_not_targets h', Surroundings.entrypoint_of_not_targets h,
    Surroundings.entrypoint_of_not_targets h']

/-- **Building is exact.** For a container that is accepted, what is built keeps what is declared and adds
what is called for. Building fails if and only if a declared volume is not resolved, or the run command
targets the container and the supervisor's volume is not. Where the run command does not target the
container, the result is the same without it, without the supervisor's volume and for any supervisor. -/
theorem build_exact {inputs : Surroundings} {c : Component} (accepted : c.check = .ok ())
    (ports : PortMap) :
    (∀ d, build inputs c ports = .ok d → d.Extends inputs c) ∧
    ((∃ fault, build inputs c ports = .error fault) ↔
      (∃ m ∈ c.volumeMounts, inputs.volumes.storage.get? m.name = none) ∨
        (∃ run, inputs.Targets run c) ∧ inputs.volumes.supervisor = none) ∧
    ((∀ run, ¬ inputs.Targets run c) → ∀ supervisor,
      build { inputs with
        volumes := ⟨inputs.volumes.projectSource, none, inputs.volumes.storage⟩
        runCommand := none
        supervisor } c ports = build inputs c ports) := by
  refine ⟨fun d => build_extends (Component.check_ok_iff.1 accepted).envDistinct,
    exists_build_error_iff, fun h supervisor => ?_⟩
  refine build_congr ?_ ?_ ?_ h ?_
  · rfl
  · rfl
  · rfl
  · rintro run ⟨hrun, -⟩
    cases hrun

/-! ## A container that declares one of the variables itself -/

/-- A container that declares the run command's variable and a part of its entrypoint. -/
def sampleWorker : Component where
  aliasName := "web"
  image := "nginx"
  command := []
  args := ["--quiet"]
  env := [⟨"ODO_COMMAND_RUN", "./own"⟩, ⟨"MODE", "dev"⟩]
  endpoints := []
  volumeMounts := [⟨"cache", "/cache"⟩]
  mountSources := true

/-- A push whose run command targets this container. -/
def sampleSurroundings : Surroundings where
  component := "shop"
  volumes := ⟨"sources", some "tools", (∅ : SortedMap String String).insert "cache" "cache-1"⟩
  runCommand := some ⟨"serve", "web", "./serve", some "/projects/app", .run, true, none⟩
  supervisor := .standard

/-- Its own variable stays, and the other two are added. -/
theorem build_exact_sample :
    sampleWorker.check = .ok () ∧
      ∃ d, build sampleSurroundings sampleWorker (.empty "127.0.0.1") = .ok d ∧
        d.Extends sampleSurroundings sampleWorker ∧
        d.config.env = [("ODO_COMMAND_RUN", "./own"), ("MODE", "dev"),
          ("ODO_COMMAND_RUN_WORKING_DIR", "/projects/app"), ("CHE_PROJECTS_ROOT", "/projects")] :=
  ⟨rfl, _, rfl, (build_exact rfl (.empty "127.0.0.1")).1 _ rfl, rfl⟩

end Definition

end DevfilePush
