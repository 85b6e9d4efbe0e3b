import DevfilePush.Proofs.Engine.Part
import DevfilePush.Push
import Mathlib.Logic.Equiv.Basic

/-!
# Renaming what an engine names

The ids of containers and the names of new volumes are the engine's to choose, and nothing but their
being the same or not counts. A renaming exchanges ids and names for others, one to one, and everything
that carries them is renamed with them: what is held, what is called for, what falls to a call and what a
push reports. Calls do the same before and after a renaming.

## Main definitions

* `Renaming`, with `Renaming.holdings`, `Renaming.request`, `Renaming.lot`, `Renaming.report`: its effect
  on everything that carries ids or names.
* `Renaming.Matches`: replies that are the same up to a renaming.

## Main statements

* `Renaming.leaves_holdings`, `Renaming.matches_of_replies`: calls do the same under a renaming.
* `Renaming.differences_definition`: definitions differ in the same under a renaming.
* `exists_perm`: finitely many ids or names can be exchanged for as many others.
-/

namespace DevfilePush

/-- Ids of containers and names of volumes, exchanged for others one to one. -/
structure Renaming where
  ids : Equiv.Perm String
  names : Equiv.Perm String

namespace Renaming

variable (π : Renaming)

/-! ## What is renamed -/

def volume (v : Volume) : Volume := { v with name := π.names v.name }

def mount (m : Mount) : Mount := { m with source := π.names m.source }

def definition (d : Definition) : Definition :=
  { d with host := { d.host with mounts := d.host.mounts.map π.mount } }

def listed (c : ListedContainer) : ListedContainer := { c with id := π.ids c.id }

def running (c : Running) : Running := ⟨π.listed c.live, π.definition c.definition⟩

def holdings (h : Holdings) : Holdings := ⟨h.volumes.map π.volume, h.containers.map π.running⟩

def lot (lot : Lot) : Lot := { lot with id := π.ids lot.id, volume := π.names lot.volume }

def request : Request → Request
  | .createContainer d => .createContainer (π.definition d)
  | .removeContainer id => .removeContainer (π.ids id)
  | .inspectContainer id => .inspectContainer (π.ids id)
  | .exec id argv attach => .exec (π.ids id) argv attach
  | .listVolumes selector => .listVolumes selector
  | .createVolume stem labels => .createVolume stem labels
  | .pullImage image => .pullImage image
  | .listContainers selector => .listContainers selector

def record (r : ContainerRecord) : ContainerRecord := { r with id := π.ids r.id }

def report (r : PushReport) : PushReport := ⟨⟨r.containers.records.map π.record⟩, r.commands⟩

/-- Replies to a call, before and after a renaming, that are the same up to the renaming and to the order
of a listing. -/
def Matches : (r : Request) → r.Reply → (π.request r).Reply → Prop
  | .listVolumes _, found, found' => List.Perm found' (List.map π.volume found)
  | .createVolume .., volume, volume' => volume' = π.volume volume
  | .createContainer _, id, id' => id' = π.ids id
  | .listContainers _, found, found' => List.Perm found' (List.map π.listed found)
  | .inspectContainer _, d, d' => d' = π.definition d
  | .exec .., code, code' => code' = code
  | .pullImage _, _, _ | .removeContainer _, _, _ => True

variable {π} {h : Holdings} {r : Request} {component : String}

theorem operation_request : (π.request r).operation = r.operation := by
  cases r <;> rfl

/-! ## Definitions -/

theorem mount_injective : Function.Injective π.mount := by
  rintro ⟨source, target⟩ ⟨source', target'⟩ heq
  obtain ⟨hsource, htarget⟩ := Mount.mk.inj heq
  exact congrArg₂ Mount.mk (π.names.injective hsource) htarget

/-- Lists that are exchanged one to one have the same elements if they had before. -/
theorem sameElements_map {α β : Type} [DecidableEq α] [DecidableEq β] {f : α → β}
    (hf : Function.Injective f) (xs ys : List α) :
    sameElements (xs.map f) (ys.map f) = sameElements xs ys := by
  rw [Bool.eq_iff_iff, sameElements_iff, sameElements_iff]
  constructor
  · intro same x
    rw [← List.mem_map_of_injective hf, ← List.mem_map_of_injective hf, same]
  · intro same y
    simp only [List.mem_map, same]

/-- Definitions differ in the same aspects as before. -/
theorem differences_definition (desired actual : Definition) :
    (π.definition desired).differences (π.definition actual) = desired.differences actual := by
  unfold Definition.differences
  refine List.filter_congr fun aspect _ => ?_
  cases aspect with
  | mounts => exact congrArg _ (sameElements_map mount_injective _ _)
  | image | command | env | portBindings => rfl

/-! ## What is held -/

theorem volumesWith_holdings (selector : Labels) :
    (π.holdings h).volumesWith selector = (h.volumesWith selector).map π.volume :=
  List.filter_map ..

theorem containersWith_holdings (selector : Labels) :
    (π.holdings h).containersWith selector = (h.containersWith selector).map π.running :=
  List.filter_map ..

theorem part_holdings (owner : Option String) :
    (π.holdings h).part owner = π.holdings (h.part owner) :=
  congrArg₂ Holdings.mk (List.filter_map ..) (List.filter_map ..)

theorem exists_holdings {id : String} (there : ∃ c ∈ h.containers, c.live.id = id) :
    ∃ c ∈ (π.holdings h).containers, c.live.id = π.ids id := by
  obtain ⟨c, hc, rfl⟩ := there
  exact ⟨π.running c, List.mem_map_of_mem hc, rfl⟩

/-- A renamed call keeps to the same component. -/
theorem keepsTo_request (keeps : r.KeepsTo component h) :
    (π.request r).KeepsTo component (π.holdings h) := by
  cases r with
  | listVolumes | createVolume | createContainer | listContainers => exact keeps
  | removeContainer id | inspectContainer id => exact exists_holdings keeps
  | pullImage | exec => trivial

/-! ## Calls -/

variable {commandLine : ContainerConfig → String} {lot : Lot} {exitCode : Int32}

theorem holdings_addVolume (v : Volume) :
    π.holdings (h.addVolume v) = (π.holdings h).addVolume (π.volume v) := by
  simp [holdings, Holdings.addVolume]

theorem holdings_addContainer (c : Running) :
    π.holdings (h.addContainer c) = (π.holdings h).addContainer (π.running c) := by
  simp [holdings, Holdings.addContainer]

theorem removeContainer_holdings (id : String) :
    (π.holdings h).removeContainer (π.ids id) = π.holdings (h.removeContainer id) := by
  refine congrArg (Holdings.mk _) ?_
  rw [holdings, List.filter_map]
  refine congrArg (List.map _) (List.filter_congr fun c _ => ?_)
  exact decide_eq_decide.2 π.ids.injective.ne_iff

theorem effect_holdings (commandLine : ContainerConfig → String) (lot : Lot) (h : Holdings)
    (r : Request) : (π.lot lot).effect commandLine (π.holdings h) (π.request r) =
      π.holdings (lot.effect commandLine h r) := by
  cases r with
  | createVolume stem labels => exact (holdings_addVolume ⟨lot.volume, labels⟩).symm
  | createContainer d => exact (holdings_addContainer (lot.container commandLine d)).symm
  | removeContainer id => exact removeContainer_holdings id
  | listVolumes | pullImage | listContainers | inspectContainer | exec => rfl

/-- A call leaves the same as before. -/
theorem leaves_holdings (commandLine : ContainerConfig → String) (lot : Lot) (h : Holdings)
    (r : Request) : (π.lot lot).leaves commandLine (π.holdings h) (π.request r) =
      π.holdings (lot.leaves commandLine h r) := by
  unfold Lot.leaves
  rw [effect_holdings]
  split <;> simp_all [Renaming.lot]

/-- A call is replied the same as before. -/
theorem matches_of_replies (ids : h.DistinctIds) {reply : r.Reply} {reply' : (π.request r).Reply}
    (replies : lot.Replies exitCode h r reply)
    (replies' : (π.lot lot).Replies exitCode (π.holdings h) (π.request r) reply') :
    π.Matches r reply reply' := by
  cases r with
  | listVolumes selector =>
    have hfound : List.Perm reply' ((h.volumesWith selector).map π.volume) :=
      volumesWith_holdings selector ▸ replies'
    exact hfound.trans (List.Perm.map _ replies).symm
  | createVolume stem labels =>
    obtain rfl : reply = (⟨lot.volume, labels⟩ : Volume) := replies
    exact replies'
  | pullImage | removeContainer => trivial
  | createContainer d =>
    obtain rfl : reply = lot.id := replies
    exact replies'
  | listContainers selector =>
    have hfound : List.Perm reply' (((h.containersWith selector).map π.running).map (·.live)) :=
      containersWith_holdings selector ▸ replies'
    have hlisted : ((h.containersWith selector).map π.running).map (·.live) =
        ((h.containersWith selector).map (·.live)).map π.listed := by
      rw [List.map_map, List.map_map]
      rfl
    exact (hlisted ▸ hfound).trans (List.Perm.map _ replies).symm
  | inspectContainer id =>
    obtain ⟨c, hc, rfl, rfl⟩ := replies
    obtain ⟨c', hc', hid, rfl⟩ := replies'
    obtain ⟨d, hd, rfl⟩ := List.mem_map.1 hc'
    obtain rfl := ids.eq_of_id hd hc (π.ids.injective hid)
    rfl
  | exec =>
    obtain rfl := replies
    exact replies'

end Renaming

/-! ## Renamings as they are needed -/

/-- Finitely many things can be exchanged for as many others in a permutation that leaves all else
alone. -/
theorem exists_perm {α : Type} [DecidableEq α] (pairs : List (α × α))
    (old : (pairs.map (·.1)).Nodup) (new : (pairs.map (·.2)).Nodup) :
    ∃ σ : Equiv.Perm α, (∀ z ∈ pairs, σ z.1 = z.2) ∧
      ∀ a, a ∉ pairs.map (·.1) → a ∉ pairs.map (·.2) → σ a = a := by
  induction pairs with
  | nil => exact ⟨Equiv.refl α, by simp, fun _ _ _ => rfl⟩
  | cons z rest ih =>
    rw [List.map_cons, List.nodup_cons] at old new
    obtain ⟨σ, hpairs, hothers⟩ := ih old.2 new.2
    -- after the other pairs, what the first member has become is swapped for the second
    refine ⟨σ.trans (Equiv.swap (σ z.1) z.2), ?_, ?_⟩
    · rw [List.forall_mem_cons]
      refine ⟨Equiv.swap_apply_left _ _, fun w hw => ?_⟩
      have hold : w.2 ≠ σ z.1 := by
        rw [← hpairs w hw]
        exact fun heq => old.1 (σ.injective heq ▸ List.mem_map_of_mem hw)
      have hnew : w.2 ≠ z.2 := fun heq => new.1 (heq ▸ List.mem_map_of_mem hw)
      rw [Equiv.trans_apply, hpairs w hw, Equiv.swap_apply_of_ne_of_ne hold hnew]
    · intro a ha ha'
      rw [List.map_cons, List.mem_cons, not_or] at ha ha'
      have hfixed : σ a = a := hothers a ha.2 ha'.2
      have hold : a ≠ σ z.1 := by
        intro heq
        exact ha.1 (σ.injective (hfixed.trans heq))
      rw [Equiv.trans_apply, hfixed, Equiv.swap_apply_of_ne_of_ne hold ha'.1]

end DevfilePush
