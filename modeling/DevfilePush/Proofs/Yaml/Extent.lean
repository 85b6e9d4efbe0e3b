import DevfilePush.Proofs.Fallible
import DevfilePush.Yaml.Node
import Mathlib.Algebra.Order.BigOperators.Group.List
import Mathlib.Algebra.Order.Ring.Nat

/-!
# The extent of a document

The size of a document is the number of its events, and each item of a list and each entry of a mapping
takes at least one event. So nothing in a document, the nodes of its anchors included, has more items and
entries than the document has events. What is read from a document without following references over and
over thus takes a number of steps that its size bounds.

## Main definitions

* `Yaml.Node.extent`: the number of items and entries in a node, at all depths.
* `Yaml.Document.Measured`: the size of a document covers its nodes.

## Main statements

* `Yaml.Builder.Measured.take`: each event pays for what it adds.
* `Yaml.Document.measured_of_ofBytes`: the size of every document that is read covers its nodes.
-/

namespace DevfilePush.Yaml

/-! ## Nodes -/

mutual

/-- The number of items and entries in a node, at all depths. -/
def Node.extent : Node → Nat
  | .nothing | .scalar .. | .reference _ => 0
  | .sequence items => itemsExtent items
  | .mapping entries => entriesExtent entries

/-- The number of items, with those in them. -/
def itemsExtent : List Node → Nat
  | [] => 0
  | node :: rest => 1 + node.extent + itemsExtent rest

/-- The number of entries, with those in them. -/
def entriesExtent : List (Node × Node) → Nat
  | [] => 0
  | (key, value) :: rest => 1 + key.extent + value.extent + entriesExtent rest

end

theorem itemsExtent_eq_sum (items : List Node) :
    itemsExtent items = (items.map fun node => 1 + node.extent).sum := by
  induction items with
  | nil => rfl
  | cons node rest ih => rw [itemsExtent, ih, List.map_cons, List.sum_cons]

theorem entriesExtent_eq_sum (entries : List (Node × Node)) :
    entriesExtent entries = (entries.map fun e => 1 + e.1.extent + e.2.extent).sum := by
  induction entries with
  | nil => rfl
  | cons e rest ih => rw [entriesExtent, ih, List.map_cons, List.sum_cons]

@[simp] theorem itemsExtent_reverse (items : List Node) :
    itemsExtent items.reverse = itemsExtent items := by
  simp only [itemsExtent_eq_sum, List.map_reverse, List.sum_reverse]

@[simp] theorem entriesExtent_reverse (entries : List (Node × Node)) :
    entriesExtent entries.reverse = entriesExtent entries := by
  simp only [entriesExtent_eq_sum, List.map_reverse, List.sum_reverse]

theorem length_le_itemsExtent (items : List Node) : items.length ≤ itemsExtent items := by
  rw [itemsExtent_eq_sum, ← List.length_map (f := fun node : Node => 1 + node.extent)]
  refine List.length_le_sum_of_one_le _ fun n hn => ?_
  obtain ⟨node, -, rfl⟩ := List.mem_map.1 hn
  omega

theorem length_le_entriesExtent (entries : List (Node × Node)) :
    entries.length ≤ entriesExtent entries := by
  rw [entriesExtent_eq_sum, ← List.length_map (f := fun e => 1 + e.1.extent + e.2.extent)]
  refine List.length_le_sum_of_one_le _ fun n hn => ?_
  obtain ⟨e, -, rfl⟩ := List.mem_map.1 hn
  omega

/-- An item is no larger than the list. -/
theorem extent_le_itemsExtent {items : List Node} {node : Node} (h : node ∈ items) :
    node.extent ≤ itemsExtent items := by
  rw [itemsExtent_eq_sum]
  have := List.le_sum_of_mem (List.mem_map_of_mem (f := fun node : Node => 1 + node.extent) h)
  omega

/-- The value of an entry is no larger than the mapping. -/
theorem extent_le_entriesExtent {entries : List (Node × Node)} {e : Node × Node} (he : e ∈ entries) :
    e.2.extent ≤ entriesExtent entries := by
  rw [entriesExtent_eq_sum]
  have := List.le_sum_of_mem
    (List.mem_map_of_mem (f := fun e : Node × Node => 1 + e.1.extent + e.2.extent) he)
  omega

/-! ## Building -/

/-- What a collection that is not complete holds so far. -/
def Frame.extent : Frame → Nat
  | .sequence _ items => itemsExtent items
  | .mapping _ entries => entriesExtent entries
  | .entry _ entries key => entriesExtent entries + (1 + key.extent)

namespace Builder

/-- What the open collections and the root hold so far. -/
def extent (b : Builder) : Nat :=
  (b.stack.map Frame.extent).sum + b.root.elim 0 fun root => 1 + root.extent

/-- There were events enough for all that is held, and for each node with an anchor. -/
structure Measured (b : Builder) : Prop where
  held : b.extent ≤ b.place
  anchored : ∀ e ∈ b.anchored, e.2.extent ≤ b.place

theorem measured_start : start.Measured where
  held := Nat.le_refl 0
  anchored := by simp [start]

variable {b : Builder}

/-- A node that is attached adds itself and what it holds, and nothing else changes. -/
theorem attach_extent_le (node : Node) : (b.attach node).extent ≤ b.extent + (1 + node.extent) := by
  unfold attach
  split <;> rename_i hstack <;>
    simp only [extent, hstack, List.map_cons, List.map_nil, List.sum_cons, List.sum_nil, Frame.extent,
      itemsExtent, entriesExtent, Option.elim_some] <;>
    omega

theorem attach_place (node : Node) : (b.attach node).place = b.place := by
  unfold attach
  split <;> rfl

theorem attach_anchored (node : Node) : (b.attach node).anchored = b.anchored := by
  unfold attach
  split <;> rfl

/-- One more event pays for a node that is complete with it. -/
theorem measured_complete_next (node : Node) (held : b.extent + node.extent ≤ b.place)
    (anchored : ∀ e ∈ b.anchored, e.2.extent ≤ b.place) (place : Option Nat) :
    (b.complete place node).next.Measured := by
  have hplace : (b.complete place node).place = b.place := by
    cases place <;> exact attach_place node
  have hextent : (b.complete place node).extent ≤ b.extent + (1 + node.extent) := by
    cases place <;> exact attach_extent_le node
  have hanchored : ∀ e ∈ (b.complete place node).anchored, e ∈ b.anchored ∨ e.2 = node := by
    intro e he
    cases place with
    | none => exact .inl (attach_anchored node ▸ he)
    | some place =>
      rw [complete, attach_anchored] at he
      rcases List.mem_cons.1 he with rfl | he
      · exact .inr rfl
      · exact .inl he
  constructor
  · change (b.complete place node).extent ≤ (b.complete place node).place + 1
    omega
  · intro e he
    change e.2.extent ≤ (b.complete place node).place + 1
    rcases hanchored e he with hold | hnode
    · have := anchored e hold
      omega
    · rw [hnode]
      omega

namespace Measured

/-- An anchor that begins here changes nothing that is held. -/
theorem begin (m : b.Measured) (anchor : Option String) : (b.begin anchor).2.Measured := by
  cases anchor with
  | none => exact m
  | some name => exact ⟨m.held, m.anchored⟩

theorem openSequence (m : b.Measured) (anchored : Option Nat) :
    ({ b with stack := .sequence anchored [] :: b.stack } : Builder).next.Measured where
  held := by
    have := m.held
    simp only [Builder.extent, next, List.map_cons, List.sum_cons, Frame.extent, itemsExtent] at this ⊢
    omega
  anchored e he := Nat.le_succ_of_le (m.anchored e he)

theorem openMapping (m : b.Measured) (anchored : Option Nat) :
    ({ b with stack := .mapping anchored [] :: b.stack } : Builder).next.Measured where
  held := by
    have := m.held
    simp only [Builder.extent, next, List.map_cons, List.sum_cons, Frame.extent, entriesExtent] at this ⊢
    omega
  anchored e he := Nat.le_succ_of_le (m.anchored e he)

/-- What an open collection holds becomes what a complete one holds. -/
theorem close (m : b.Measured) : b.close.next.Measured := by
  have hheld := m.held
  unfold Builder.close
  split
  · rename_i anchored items rest hstack
    refine measured_complete_next (b := { b with stack := rest }) _ ?_ m.anchored _
    simp only [Builder.extent, hstack, List.map_cons, List.sum_cons, Frame.extent, Node.extent,
      itemsExtent_reverse] at hheld ⊢
    omega
  · rename_i anchored entries rest hstack
    refine measured_complete_next (b := { b with stack := rest }) _ ?_ m.anchored _
    simp only [Builder.extent, hstack, List.map_cons, List.sum_cons, Frame.extent, Node.extent,
      entriesExtent_reverse] at hheld ⊢
    omega
  · exact ⟨Nat.le_succ_of_le hheld, fun e he => Nat.le_succ_of_le (m.anchored e he)⟩

/-- **One event.** Each event pays for what it adds. -/
theorem take (m : b.Measured) {event : Event} {b' : Builder} (h : b.take event = .ok b') :
    b'.Measured := by
  cases event with
  | documentStart | documentEnd => exact Except.ok.inj h ▸ m
  | sequenceStart anchor => exact Except.ok.inj h ▸ (m.begin anchor).openSequence _
  | mappingStart anchor => exact Except.ok.inj h ▸ (m.begin anchor).openMapping _
  | sequenceEnd | mappingEnd => exact Except.ok.inj h ▸ m.close
  | scalar anchor tag text style =>
    have m' := m.begin anchor
    exact Except.ok.inj h ▸
      measured_complete_next (.scalar text style tag) m'.held m'.anchored _
  | reference name =>
    simp only [Builder.take] at h
    split at h
    · exact Except.ok.inj h ▸ measured_complete_next (.reference _) m.held m.anchored none
    · cases h

/-- **All events.** -/
theorem foldlM (m : b.Measured) {events : List Event} {b' : Builder}
    (h : events.foldlM Builder.take b = .ok b') : b'.Measured := by
  induction events generalizing b with
  | nil => exact Except.ok.inj h ▸ m
  | cons event rest ih =>
    rw [List.foldlM_cons, Except.bind_ok_iff] at h
    obtain ⟨next, hevent, hrest⟩ := h
    exact ih (m.take hevent) hrest

end Measured

end Builder

/-! ## Documents -/

namespace Document

/-- The size of a document covers its root, unless there is none, and the node of each anchor. -/
structure Measured (d : Document) : Prop where
  root : d.root = .nothing ∨ 1 + d.root.extent ≤ d.size
  anchors : ∀ e ∈ d.anchors, e.2.extent ≤ d.size

end Document

theorem Builder.Measured.document {b : Builder} (m : b.Measured) : b.document.Measured where
  root := by
    have hheld := m.held
    cases hroot : b.root with
    | none => exact .inl (by simp only [Builder.document, hroot, Option.getD_none])
    | some root =>
      refine .inr ?_
      simp only [Builder.extent, hroot, Option.elim_some] at hheld
      simp only [Builder.document, hroot, Option.getD_some]
      omega
  anchors := by
    intro e he
    obtain ⟨⟨id, place⟩, -, hnode⟩ := List.mem_filterMap.1 he
    obtain ⟨node, hlookup, rfl⟩ := Option.map_eq_some_iff.1 hnode
    obtain ⟨before, after, hsplit, -⟩ := List.lookup_eq_some_iff.1 hlookup
    exact m.anchored (place, node) (hsplit ▸ by simp)

namespace Document

theorem measured_of_ofEvents {events : List Event} {d : Document} (h : ofEvents events = .ok d) :
    d.Measured := by
  unfold ofEvents at h
  split at h
  · cases h
  · cases hfold : events.foldlM Builder.take .start with
    | error fault =>
      rw [hfold] at h
      cases h
    | ok b =>
      rw [hfold] at h
      exact Except.ok.inj h ▸ (Builder.measured_start.foldlM hfold).document

/-- The size of every document that is read covers its nodes. -/
theorem measured_of_ofBytes {bytes : ByteArray} {d : Document} (h : ofBytes bytes = .ok d) :
    d.Measured := by
  unfold ofBytes at h
  split at h
  · cases h
  · obtain ⟨tokens, -, h⟩ := Except.bind_ok_iff.1 h
    obtain ⟨events, -, h⟩ := Except.bind_ok_iff.1 h
    exact measured_of_ofEvents h

end Document

end DevfilePush.Yaml
