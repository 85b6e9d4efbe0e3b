import DevfilePush.Container.Definition

/-!
# When a container has to be replaced

An engine cannot change a running container, so a container is replaced as soon as it differs from
its desired definition. Image and command are compared exactly; environment, mounts and port bindings
are compared as sets; labels and exposed ports are not compared.

## Main definitions

* `Difference`: an aspect in which two definitions differ.
* `Definition.differences`, `Definition.agrees`
-/

namespace DevfilePush

/-- An aspect in which a container can differ from its desired definition. -/
inductive Difference where
  | image
  | command
  | env
  | mounts
  | portBindings
  deriving DecidableEq, Repr

namespace Difference

/-- All aspects, in the order in which they are listed. -/
def all : List Difference := [.image, .command, .env, .mounts, .portBindings]

/-- The aspect in words. -/
def text : Difference → String
  | image => "image"
  | command => "command"
  | env => "env"
  | mounts => "mounts"
  | portBindings => "port bindings"

end Difference

/-- Whether two lists have the same elements, whatever their order and number. -/
def sameElements {α : Type} [DecidableEq α] (xs ys : List α) : Bool :=
  xs.all (· ∈ ys) && ys.all (· ∈ xs)

theorem sameElements_iff {α : Type} [DecidableEq α] {xs ys : List α} :
    sameElements xs ys = true ↔ ∀ x, x ∈ xs ↔ x ∈ ys := by
  simp only [sameElements, Bool.and_eq_true, List.all_eq_true, decide_eq_true_eq]
  exact ⟨fun h x => ⟨h.1 x, h.2 x⟩, fun h => ⟨fun x => (h x).1, fun x => (h x).2⟩⟩

namespace Definition

/-- Whether two definitions agree in one aspect. -/
def agreesIn (desired actual : Definition) : Difference → Bool
  | .image => desired.config.image = actual.config.image
  | .command =>
    desired.config.command = actual.config.command && desired.config.args = actual.config.args
  | .env => sameElements desired.config.env actual.config.env
  | .mounts => sameElements desired.host.mounts actual.host.mounts
  | .portBindings => sameElements desired.host.portBindings actual.host.portBindings

/-- The aspects in which two definitions differ. -/
def differences (desired actual : Definition) : List Difference :=
  Difference.all.filter fun d => !desired.agreesIn actual d

/-- Whether a container created from `actual` may stay. -/
def agrees (desired actual : Definition) : Bool := (desired.differences actual).isEmpty

@[simp] theorem mem_differences {desired actual : Definition} {d : Difference} :
    d ∈ desired.differences actual ↔ desired.agreesIn actual d = false := by
  cases d <;> simp [differences, Difference.all]

end Definition

end DevfilePush
