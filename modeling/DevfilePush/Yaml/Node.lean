import DevfilePush.Yaml.Event

/-!
# YAML documents

A document is a tree of nodes with references to anchored nodes in it. References are not followed
when the document is read, so a node may refer to one that it is part of.

## Main definitions

* `Yaml.Node`, `Yaml.Document`
* `Yaml.Document.ofEvents`: the only document of a stream.
* `Yaml.Document.ofBytes`: the document of a stream of bytes.
-/

namespace DevfilePush.Yaml

/-- A node of a document. -/
inductive Node where
  /-- The root of a stream without documents. -/
  | nothing
  | scalar (text : String) (style : ScalarStyle) (tag : Option Tag)
  | sequence (items : List Node)
  | mapping (entries : List (Node × Node))
  /-- The node that the anchor of a number stands for. -/
  | reference (id : Nat)
  deriving Inhabited

/-- A document with the nodes that its anchors stand for. -/
structure Document where
  root : Node
  anchors : List (Nat × Node)
  /-- The number of events between the start and the end of the document. -/
  size : Nat

/-! ## Anchors

Anchors are numbered by how many different names came before. A name that is given again stands for
its latest node, but its number may then be that of a later name too; of nodes with one number the one
that begins last counts. -/

/-- The anchors seen so far. -/
structure Anchors where
  /-- The latest number of each name. -/
  names : List (String × Nat)
  /-- The latest node of each number, by the place at which it begins. -/
  places : List (Nat × Nat)

namespace Anchors

/-- No anchor was seen. -/
def empty : Anchors := ⟨[], []⟩

/-- An anchor of a node that begins at a place. -/
def define (a : Anchors) (name : String) (place : Nat) : Anchors :=
  let id := a.names.length
  { names := (name, id) :: a.names.filter (·.1 ≠ name)
    places := (id, place) :: a.places.filter (·.1 ≠ id) }

end Anchors

/-! ## Building -/

/-- A collection that is not complete yet, with the place at which it begins if it has an anchor. What
it holds is in reverse. -/
inductive Frame where
  | sequence (anchored : Option Nat) (items : List Node)
  | mapping (anchored : Option Nat) (entries : List (Node × Node))
  /-- A mapping with a key whose value is to come. -/
  | entry (anchored : Option Nat) (entries : List (Node × Node)) (key : Node)

/-- The state of building a document. -/
structure Builder where
  /-- The number of events so far, without the marks of the document. -/
  place : Nat
  anchors : Anchors
  /-- The complete nodes with anchors, by the place at which they begin. -/
  anchored : List (Nat × Node)
  stack : List Frame
  root : Option Node

namespace Builder

/-- Nothing is built. -/
def start : Builder := ⟨0, .empty, [], [], none⟩

/-- Takes an anchor, if there is one, of a node that begins here. -/
def begin (b : Builder) (anchor : Option String) : Option Nat × Builder :=
  match anchor with
  | some name => (some b.place, { b with anchors := b.anchors.define name b.place })
  | none => (none, b)

/-- Puts a complete node where it belongs. -/
def attach (b : Builder) (node : Node) : Builder :=
  match b.stack with
  | .sequence anchored items :: rest =>
    { b with stack := .sequence anchored (node :: items) :: rest }
  | .mapping anchored entries :: rest => { b with stack := .entry anchored entries node :: rest }
  | .entry anchored entries key :: rest =>
    { b with stack := .mapping anchored ((key, node) :: entries) :: rest }
  | [] => { b with root := some node }

/-- Puts a complete node where it belongs and remembers it if it has an anchor. -/
def complete (b : Builder) (anchored : Option Nat) (node : Node) : Builder :=
  let b := match anchored with
    | some place => { b with anchored := (place, node) :: b.anchored }
    | none => b
  b.attach node

/-- Closes the innermost collection. -/
def close (b : Builder) : Builder :=
  match b.stack with
  | .sequence anchored items :: rest =>
    { b with stack := rest }.complete anchored (.sequence items.reverse)
  | .mapping anchored entries :: rest =>
    { b with stack := rest }.complete anchored (.mapping entries.reverse)
  | _ => b

/-- The builder after one more event of a node. -/
def next (b : Builder) : Builder := { b with place := b.place + 1 }

/-- Takes one event of a document. -/
def take (b : Builder) : Event → Except Fault Builder
  | .documentStart | .documentEnd => .ok b
  | .sequenceStart anchor =>
    let (anchored, b) := b.begin anchor
    .ok { b with stack := .sequence anchored [] :: b.stack }.next
  | .mappingStart anchor =>
    let (anchored, b) := b.begin anchor
    .ok { b with stack := .mapping anchored [] :: b.stack }.next
  | .sequenceEnd | .mappingEnd => .ok b.close.next
  | .scalar anchor tag text style =>
    let (anchored, b) := b.begin anchor
    .ok (b.complete anchored (.scalar text style tag)).next
  | .reference name =>
    match b.anchors.names.lookup name with
    | some id => .ok (b.attach (.reference id)).next
    | none => .error ⟨"an unknown anchor", .start⟩

/-- The document that was built. -/
def document (b : Builder) : Document where
  root := b.root.getD .nothing
  anchors := b.anchors.places.filterMap fun (id, place) => (b.anchored.lookup place).map (id, ·)
  size := b.place

end Builder

/-- The only document of a stream; a stream without documents has one with nothing in it. -/
def Document.ofEvents (events : List Event) : Except Fault Document :=
  if 1 < events.count .documentStart then .error ⟨"more than one document", .start⟩
  else (events.foldlM Builder.take .start).map Builder.document

/-- The document of a stream of bytes. -/
def Document.ofBytes (bytes : ByteArray) : Except Fault Document := do
  match charsOfBytes? bytes with
  | none => .error ⟨"the stream is not text of printable characters", .start⟩
  | some chars =>
    let tokens ← Token.ofChars chars
    let events ← Event.ofTokens tokens
    ofEvents events

end DevfilePush.Yaml
