import DevfilePush.Container.Blueprint
import DevfilePush.Proofs.Devfile.Check
import DevfilePush.Proofs.Labels

/-!
# What a container has to be running

The definition that a container has to be running is built from what is declared of it and from what the
push brings to it. It carries the labels of the container's own alias and of no other, whatever ports
are bound to it.

## Main statements

* `Definition.agrees_refl`: a container agrees with the definition it was created from.
* `Blueprint.desired_ok_iff`, `Blueprint.selects_desired`: what is built, and which alias it is for.
-/

namespace DevfilePush

/-! ## Definitions compared -/

@[simp] theorem sameElements_refl {α : Type} [DecidableEq α] (xs : List α) :
    sameElements xs xs = true :=
  sameElements_iff.2 fun _ => Iff.rfl

theorem sameElements_trans {α : Type} [DecidableEq α] {xs ys zs : List α}
    (hxy : sameElements xs ys = true) (hyz : sameElements ys zs = true) : sameElements xs zs = true :=
  sameElements_iff.2 fun x => (sameElements_iff.1 hxy x).trans (sameElements_iff.1 hyz x)

theorem sameElements_of_perm {α : Type} [DecidableEq α] {xs ys : List α} (perm : xs.Perm ys) :
    sameElements xs ys = true :=
  sameElements_iff.2 fun _ => perm.mem_iff

namespace Definition

variable {desired actual : Definition}

theorem agrees_iff : desired.agrees actual = true ↔ desired.differences actual = [] := by
  rw [agrees, List.isEmpty_iff]

/-- A container may stay if and only if it agrees in every aspect. -/
theorem agrees_iff_forall :
    desired.agrees actual = true ↔ ∀ d, desired.agreesIn actual d = true := by
  rw [agrees_iff, List.eq_nil_iff_forall_not_mem]
  simp only [mem_differences, Bool.not_eq_false]

@[simp] theorem agrees_refl (d : Definition) : d.agrees d = true := by
  rw [agrees_iff_forall]
  intro aspect
  cases aspect <;> simp [agreesIn]

theorem agreesIn_trans {other : Definition} {aspect : Difference}
    (h : desired.agreesIn other aspect = true) (h' : other.agreesIn actual aspect = true) :
    desired.agreesIn actual aspect = true := by
  cases aspect with
  | image | command =>
    simp only [agreesIn, decide_eq_true_eq, Bool.and_eq_true] at h h' ⊢
    grind
  | env | mounts | portBindings => exact sameElements_trans h h'

/-- A definition agrees with whatever one that it agrees with does. -/
theorem agrees_trans {other : Definition} (h : desired.agrees other = true)
    (h' : other.agrees actual = true) : desired.agrees actual = true := by
  rw [agrees_iff_forall] at h h' ⊢
  exact fun aspect => agreesIn_trans (h aspect) (h' aspect)

/-- What a definition is built from. -/
theorem build_ok_iff {inputs : Surroundings} {c : Component} {ports : PortMap} :
    build inputs c ports = .ok desired ↔
      ∃ storage supervisor, inputs.storageMounts c = .ok storage ∧
        inputs.supervisorMounts c = .ok supervisor ∧
        desired = {
          config := {
            image := c.image
            command := (inputs.entrypoint c).1
            args := (inputs.entrypoint c).2
            env := inputs.env c
            labels := inputs.labels c ports
            exposedPorts := c.endpoints.map (·.targetPort) }
          host := {
            portBindings := ports.bindings
            mounts := storage ++ supervisor ++ inputs.sourceMounts c } } := by
  simp only [build, Except.bind_ok_iff]
  constructor
  · rintro ⟨storage, hstorage, supervisor, hsupervisor, h⟩
    exact ⟨storage, supervisor, hstorage, hsupervisor, (Except.ok.inj h).symm⟩
  · rintro ⟨storage, supervisor, hstorage, hsupervisor, rfl⟩
    exact ⟨storage, hstorage, supervisor, hsupervisor, rfl⟩

/-- The labels of what is built are those of the container with its ports. -/
theorem labels_of_build {inputs : Surroundings} {c : Component} {ports : PortMap}
    (h : build inputs c ports = .ok desired) : desired.config.labels = inputs.labels c ports := by
  obtain ⟨storage, supervisor, -, -, rfl⟩ := build_ok_iff.1 h
  rfl

end Definition

namespace Blueprint

variable {ctx : Context} {b : Blueprint} {c : Component} {desired : Definition}

/-- What a container has to be running is built from the ports bound to it. -/
theorem desired_ok_iff :
    b.desired ctx c = .ok desired ↔
      ∃ ports, PortMap.ofUrls ctx.component c b.urls ctx.config.hostIp = .ok ports ∧
        Definition.build (b.surroundings ctx) c ports = .ok desired := by
  simp only [Blueprint.desired, Except.bind_ok_iff, Except.mapError_ok_iff]

/-- What a container has to be running carries the labels of its own alias and of no other. -/
theorem selects_desired (h : b.desired ctx c = .ok desired) {component aliasName : String} :
    (Labels.ofContainer component aliasName).selects desired.config.labels = true ↔
      component = ctx.component ∧ aliasName = c.aliasName := by
  obtain ⟨ports, -, hbuild⟩ := desired_ok_iff.1 h
  rw [Definition.labels_of_build hbuild]
  exact Surroundings.ofContainer_selects_labels

end Blueprint

end DevfilePush
