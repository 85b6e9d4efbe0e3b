import DevfilePush.Yaml.Stream

/-!
# YAML tokens

What a stream is cut into: directives and marks of documents, the beginnings and ends of collections,
the indicators within them, properties of nodes, and scalars.

## Main definitions

* `Yaml.Mark`: a place in a stream.
* `Yaml.Fault`: why a stream is refused.
* `Yaml.Token`
-/

namespace DevfilePush.Yaml

/-- A place in a stream. -/
structure Mark where
  /-- The number of lines before it. -/
  line : Nat
  /-- The number of characters before it on its line. -/
  column : Nat
  /-- The number of octets that these characters take in UTF-8. -/
  octets : Nat
  deriving DecidableEq, Repr

namespace Mark

/-- The beginning of a stream. -/
def start : Mark := ⟨0, 0, 0⟩

/-- So many characters of one octet further on the line. -/
def advance (m : Mark) (n : Nat) : Mark := ⟨m.line, m.column + n, m.octets + n⟩

/-- The beginning of the next line. -/
def nextLine (m : Mark) : Mark := ⟨m.line + 1, 0, 0⟩

/-- After a character. -/
def after (m : Mark) (c : Char) : Mark :=
  if isBreak c then m.nextLine else ⟨m.line, m.column + 1, m.octets + c.utf8Size⟩

end Mark

/-- Why a stream is refused, and where. -/
structure Fault where
  reason : String
  mark : Mark
  deriving Repr

/-- The fault in words. -/
def Fault.message (f : Fault) : String :=
  f.reason ++ " at line " ++ toString (f.mark.line + 1) ++ " column " ++ toString (f.mark.column + 1)

/-- A tag or a part of one, in octets. -/
abbrev Tag := List UInt8

/-- How a scalar is written. -/
inductive ScalarStyle where
  | plain
  | singleQuoted
  | doubleQuoted
  | literal
  | folded
  deriving DecidableEq, Repr

/-- A token of a YAML stream. -/
inductive Token where
  | versionDirective (major minor : Nat)
  | tagDirective (handle : String) (start : Tag)
  | documentStart
  | documentEnd
  | blockSequenceStart
  | blockMappingStart
  | blockEnd
  | flowSequenceStart
  | flowSequenceEnd
  | flowMappingStart
  | flowMappingEnd
  | blockEntry
  | flowEntry
  | key
  | value
  /-- A reference to an anchor. -/
  | reference (name : String)
  | anchor (name : String)
  /-- A tag; without a handle it is written in full. -/
  | tag (handle : String) (suffix : Tag)
  | scalar (text : String) (style : ScalarStyle)
  deriving DecidableEq, Repr

/-- Whether a character may stand in the name of an anchor, a directive or a handle. -/
def isNameChar (c : Char) : Bool := c.isAlphanum || c = '_' || c = '-'

/-- Whether a document starts or ends here, at the beginning of a line. -/
def atDocumentMark (cs : List Char) : Bool :=
  match cs with
  | '-' :: '-' :: '-' :: rest | '.' :: '.' :: '.' :: rest => atGap rest
  | _ => false

end DevfilePush.Yaml
