import DevfilePush.Text.Digits
import DevfilePush.Yaml.Node

/-!
# Reading values from YAML nodes

What a node stands for depends on what is wanted. A text may be any scalar; a number or a truth value
is a scalar without quotes of the right form; a record is a mapping whose keys are scalars, in which
unknown keys are ignored and known ones may not come twice. An empty value stands for a record or a
list with nothing in it.

A few nodes that refer to each other could stand for any amount of data, so a reading may follow only
so many references, by the size of the document. Nodes that are ignored are not followed.

## Main definitions

* `Yaml.Reading`, `Yaml.Document.read?`: a reading, and what it makes of a document.
* `Yaml.Document.text`, `bool`, `natural`, `optionalText`: scalars.
* `Yaml.Document.items`: the items of a list.
* `Yaml.Document.fields`: the known fields of a record.
-/

namespace DevfilePush.Yaml

/-! ## Forms of scalars -/

/-- The words for nothing. -/
def isNullWord (text : String) : Bool :=
  text = "~" || text = "null" || text = "Null" || text = "NULL"

/-- The truth value of a word. -/
def boolOfWord? (text : String) : Option Bool :=
  if text = "true" || text = "True" || text = "TRUE" then some true
  else if text = "false" || text = "False" || text = "FALSE" then some false
  else none

/-- The value below a bound of digits in the base that a letter after a zero names. -/
def basedValue? (bound : Nat) : List Char → Option Nat
  | '0' :: 'x' :: digits => Text.digitsBelow? 16 bound digits
  | '0' :: 'o' :: digits => Text.digitsBelow? 8 bound digits
  | '0' :: 'b' :: digits => Text.digitsBelow? 2 bound digits
  | _ => none

/-- Whether decimal digits begin with a zero that does not stand alone. -/
def hasLeadingZero (cs : List Char) : Bool := 1 < cs.length && cs.head? = some '0'

/-- The value of a natural number below a bound with an optional plus sign. -/
def naturalOfWord? (bound : Nat) (text : String) : Option Nat :=
  let cs := match text.toList with
    | '+' :: rest => rest
    | cs => cs
  match basedValue? bound cs with
  | some n => some n
  | none => if hasLeadingZero cs then none else Text.digitsBelow? 10 bound cs

/-- The tag of a type of the common schema. -/
def coreTag (name : String) : Tag := asciiOctets ("tag:yaml.org,2002:" ++ name).toList

/-- The word that a scalar gives for a type: a plain scalar gives its text, and so does a literal one
that is tagged with the type. -/
def typedWord? (typeName : String) : Node → Option String
  | .scalar text .plain _ => some text
  | .scalar text .literal (some tag) => if tag = coreTag typeName then some text else none
  | _ => none

/-- The text of a scalar, or nothing for a word that says so and for an empty plain scalar. A tag on a
plain scalar makes it a text, except the tag for nothing, which allows only the words for nothing. -/
def optionalTextOf? : Node → Option (Option String)
  | .scalar text .plain none => if text.isEmpty || isNullWord text then some none else some (some text)
  | .scalar text .plain (some tag) =>
    if tag = coreTag "null" then (if isNullWord text then some none else none)
    else some (some text)
  | .scalar text _ _ => some (some text)
  | _ => none

/-- Whether a node is a value that was left out. -/
def isLeftOut : Node → Bool
  | .nothing => true
  | .scalar text .plain _ => text.isEmpty
  | _ => false

/-! ## Reading -/

/-- A reading of nodes. It keeps how many references may still be followed, and fails where a node is
not what is wanted or no reference is left. -/
abbrev Reading := StateT Nat Option

/-- How many references may be followed for each event of a document. -/
def referencesPerEvent : Nat := 100

namespace Document

/-- The node itself, or the one it refers to. -/
def deref (d : Document) : Node → Reading Node
  | .reference id => fun
    | 0 => none
    | left + 1 => some ((d.anchors.lookup id).getD .nothing, left)
  | node => pure node

/-- The text of a scalar. -/
def text (d : Document) (node : Node) : Reading String := do
  match ← d.deref node with
  | .scalar text _ _ => return text
  | _ => failure

/-- The text of a scalar, or nothing. -/
def optionalText (d : Document) (node : Node) : Reading (Option String) := do
  optionalTextOf? (← d.deref node)

/-- A truth value. -/
def bool (d : Document) (node : Node) : Reading Bool := do
  (typedWord? "bool" (← d.deref node)).bind boolOfWord?

/-- A natural number below a bound. -/
def natural (d : Document) (bound : Nat) (node : Node) : Reading Nat := do
  (typedWord? "int" (← d.deref node)).bind (naturalOfWord? bound)

/-- The items of a list. -/
def items (d : Document) (node : Node) : Reading (List Node) := do
  match ← d.deref node with
  | .sequence items => return items
  | other => if isLeftOut other then return [] else failure

/-- Whether a text is one of the names. -/
def isKnown (names : List String) (text : String) : Bool := names.any (· == text)

/-- Adds the entries of known keys to those before, if every key is a scalar and no known one comes
twice. -/
def knownEntries (d : Document) (names : List String) (known : List (String × Node)) :
    List (Node × Node) → Reading (List (String × Node))
  | [] => return known
  | (key, value) :: rest => do
    let key ← d.text key
    if isKnown names key then
      if known.any (·.1 = key) then failure else knownEntries d names ((key, value) :: known) rest
    else knownEntries d names known rest

/-- The known fields of a record. -/
def fields (d : Document) (names : List String) (node : Node) : Reading (List (String × Node)) := do
  match ← d.deref node with
  | .mapping entries => d.knownEntries names [] entries
  | other => if isLeftOut other then return [] else failure

/-- What a reading makes of the root. -/
def read? {α : Type} (d : Document) (reading : Document → Node → Reading α) : Option α :=
  (reading d d.root (referencesPerEvent * d.size)).map (·.1)

end Document

/-- The value of a field, or its default where it is left out. -/
def fieldOr {α : Type} (fields : List (String × Node)) (name : String) (default : α)
    (read : Node → Reading α) : Reading α :=
  match fields.lookup name with
  | some node => read node
  | none => return default

/-- The value of a field that must be there. -/
def field {α : Type} (fields : List (String × Node)) (name : String) (read : Node → Reading α) :
    Reading α :=
  match fields.lookup name with
  | some node => read node
  | none => failure

end DevfilePush.Yaml
