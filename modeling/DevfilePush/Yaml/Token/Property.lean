import DevfilePush.Text.Digits
import DevfilePush.Yaml.Token

/-!
# Directives, anchors and tags

The tokens that a percent sign, an ampersand, an asterisk or an exclamation mark begins.

## Main definitions

* `Yaml.readDirective`, `Yaml.readName`, `Yaml.readTag`
-/

namespace DevfilePush.Yaml

/-- A part that was read, and where the stream goes on. -/
structure Part (α : Type) where
  value : α
  rest : List Char
  mark : Mark

/-- Skips spaces and tabs. -/
def skipSpaces (mark : Mark) (cs : List Char) : List Char × Mark :=
  let (blanks, rest) := cs.span isSpace
  (rest, mark.advance blanks.length)

/-! ## Tags -/

/-- Whether a character may stand in a tag; commas and brackets may only where they cannot be taken
for indicators. -/
def isTagChar (indicators : Bool) (c : Char) : Bool :=
  isNameChar c || ";/?:@&=+$.!~*'()".contains c || (indicators && ",[]".contains c)

/-- The octet of two hexadecimal digits. -/
def octet? (a b : Char) : Option Nat := Text.digits? 16 [a, b]

/-- How many octets follow the first octet of a character in UTF-8. -/
def following? (octet : Nat) : Option Nat :=
  if octet < 0x80 then some 0
  else if 0xC0 ≤ octet ∧ octet < 0xE0 then some 1
  else if 0xE0 ≤ octet ∧ octet < 0xF0 then some 2
  else if 0xF0 ≤ octet ∧ octet < 0xF8 then some 3
  else none

/-- Reads the characters of a tag; `missing` octets of a character written in octets are to come, and
`octets` are those read, in reverse. -/
def readTagChars (indicators : Bool) (octets : List UInt8) (missing : Nat) (mark : Mark) :
    List Char → Except Fault (Part Tag)
  | '%' :: a :: b :: rest =>
    match octet? a b with
    | none => .error ⟨"an octet is expected in a tag", mark⟩
    | some n =>
      let following := if missing = 0 then following? n
        else if 0x80 ≤ n ∧ n < 0xC0 then some (missing - 1) else none
      match following with
      | some missing =>
        readTagChars indicators (UInt8.ofNat n :: octets) missing (mark.advance 3) rest
      | none => .error ⟨"an octet is out of place in a tag", mark⟩
  | c :: rest =>
    if missing ≠ 0 ∨ c = '%' then .error ⟨"an octet is expected in a tag", mark⟩
    else if isTagChar indicators c then
      readTagChars indicators (UInt8.ofNat c.toNat :: octets) 0 (mark.advance 1) rest
    else .ok ⟨octets.reverse, c :: rest, mark⟩
  | [] =>
    if missing ≠ 0 then .error ⟨"an octet is expected in a tag", mark⟩
    else .ok ⟨octets.reverse, [], mark⟩

/-- Reads a tag of which the octets `first` are known; one of no octets is refused unless `mayBeEmpty`.
A zero octet ends the tag: what follows it is read and forgotten. -/
def readTagText (indicators mayBeEmpty : Bool) (first : Tag) (mark : Mark) (cs : List Char) :
    Except Fault (Part Tag) := do
  let part ← readTagChars indicators first.reverse 0 mark cs
  if part.value.isEmpty && !mayBeEmpty then .error ⟨"a tag is expected", mark⟩
  else return { part with value := part.value.takeWhile (· ≠ 0) }

/-- Reads a tag's handle: an exclamation mark, and a name with another one if there is one. -/
def readHandle (mark : Mark) : List Char → Except Fault (Part (List Char))
  | '!' :: rest =>
    let (name, rest) := rest.span isNameChar
    match rest with
    | '!' :: rest => .ok ⟨'!' :: name ++ ['!'], rest, mark.advance (name.length + 2)⟩
    | _ => .ok ⟨'!' :: name, rest, mark.advance (name.length + 1)⟩
  | _ => .error ⟨"an exclamation mark is expected", mark⟩

/-- Whether a handle has its second exclamation mark. -/
def isClosedHandle (handle : List Char) : Bool := 1 < handle.length && handle.getLast? = some '!'

/-- The octets of ASCII characters. -/
def asciiOctets (cs : List Char) : Tag := cs.map fun c => UInt8.ofNat c.toNat

/-- Reads a tag that is written in full, after its opening bracket. -/
def readFullTag (mark : Mark) (cs : List Char) : Except Fault (Part Token) := do
  let part ← readTagText true false [] mark cs
  match part.rest with
  | '>' :: rest => return ⟨.tag "" part.value, rest, part.mark.advance 1⟩
  | _ => .error ⟨"a closing bracket is expected after a tag", part.mark⟩

/-- Reads a tag that is written with a handle. What follows a lone exclamation mark belongs to the
tag, and the mark alone is a tag of its own. -/
def readShortTag (mark : Mark) (cs : List Char) : Except Fault (Part Token) := do
  let handle ← readHandle mark cs
  if isClosedHandle handle.value then
    let suffix ← readTagText false false [] handle.mark handle.rest
    return ⟨.tag (String.ofList handle.value) suffix.value, suffix.rest, suffix.mark⟩
  else
    let suffix ← readTagText false true (asciiOctets (handle.value.drop 1)) handle.mark handle.rest
    let token := if suffix.value.isEmpty then Token.tag "" (asciiOctets ['!'])
      else Token.tag "!" suffix.value
    return ⟨token, suffix.rest, suffix.mark⟩

/-- Reads a tag, which a gap has to follow, or a comma within a flow collection. -/
def readTag (flow : Bool) (mark : Mark) (cs : List Char) : Except Fault (Part Token) := do
  let part ← match cs with
    | '!' :: '<' :: rest => readFullTag (mark.advance 2) rest
    | _ => readShortTag mark cs
  if atGap part.rest || (flow && part.rest.head? = some ',') then return part
  else .error ⟨"a gap is expected after a tag", part.mark⟩

/-! ## Anchors -/

/-- Whether the name of an anchor may end here. -/
def atNameEnd (cs : List Char) : Bool :=
  atGap cs || cs.head?.any fun c => "?:,]\x7d%@\x60".contains c

/-- Reads the name of an anchor or of a reference to one. -/
def readName (mark : Mark) (cs : List Char) : Except Fault (Part String) :=
  let (name, rest) := cs.span isNameChar
  if name.isEmpty || !atNameEnd rest then .error ⟨"a name is expected", mark⟩
  else .ok ⟨String.ofList name, rest, mark.advance name.length⟩

/-! ## Directives -/

/-- Reads a number of at most nine digits. -/
def readVersionNumber (mark : Mark) (cs : List Char) : Except Fault (Part Nat) :=
  let (digits, rest) := cs.span (·.isDigit)
  match Text.digits? 10 digits with
  | some n =>
    if digits.length ≤ 9 then .ok ⟨n, rest, mark.advance digits.length⟩
    else .error ⟨"a version number is too long", mark⟩
  | none => .error ⟨"a version number is expected", mark⟩

/-- Reads the version of a version directive. -/
def readVersion (mark : Mark) (cs : List Char) : Except Fault (Part Token) := do
  let (cs, mark) := skipSpaces mark cs
  let major ← readVersionNumber mark cs
  match major.rest with
  | '.' :: rest =>
    let minor ← readVersionNumber (major.mark.advance 1) rest
    return ⟨.versionDirective major.value minor.value, minor.rest, minor.mark⟩
  | _ => .error ⟨"a point is expected in a version", major.mark⟩

/-- Reads the handle of a tag directive and what it stands for. -/
def readTagDirective (mark : Mark) (cs : List Char) : Except Fault (Part Token) := do
  let (cs, mark) := skipSpaces mark cs
  let handle ← readHandle mark cs
  if !isClosedHandle handle.value && handle.value ≠ ['!'] then
    .error ⟨"an exclamation mark is expected", handle.mark⟩
  else if !handle.rest.head?.any isSpace then .error ⟨"a blank is expected", handle.mark⟩
  else
    let (cs, mark) := skipSpaces handle.mark handle.rest
    let start ← readTagText true false [] mark cs
    if atGap start.rest then
      return ⟨.tagDirective (String.ofList handle.value) start.value, start.rest, start.mark⟩
    else .error ⟨"a gap is expected after a tag", start.mark⟩

/-- Reads a directive after its percent sign, up to what may follow on its line. -/
def readDirective (mark : Mark) (cs : List Char) : Except Fault (Part Token) := do
  let (name, rest) := cs.span isNameChar
  let after := mark.advance name.length
  if name.isEmpty || !atGap rest then .error ⟨"the name of a directive is expected", mark⟩
  else if name = "YAML".toList then readVersion after rest
  else if name = "TAG".toList then readTagDirective after rest
  else .error ⟨"an unknown directive", mark⟩

end DevfilePush.Yaml
