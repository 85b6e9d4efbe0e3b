/-!
# JSON values

Values as they stand in a document: members of an object keep their order and their repetitions, and
a number keeps whether it was written as an integer.

## Main definitions

* `Json`, `Json.Number`, `Json.Literal`
* `Json.render`: a value as compact text.
* `Json.lastWins`: of several members with one key only the last.
-/

namespace DevfilePush

namespace Json

/-- The text that a string denotes, or `none` where its octets are not UTF-8 or its escapes leave half of
a surrogate pair. -/
abbrev Literal := Option String

/-- A number as it was written. -/
inductive Number where
  /-- Digits with an optional minus, other than `-0`, of a value below `2 ^ 64`. -/
  | integer (n : Int)
  /-- Any other number, as its text. -/
  | decimal (text : String)
  deriving DecidableEq, Repr

end Json

/-- A JSON value. -/
inductive Json where
  | null
  | bool (b : Bool)
  | number (n : Json.Number)
  | string (s : Json.Literal)
  | array (items : List Json)
  | object (members : List (Json.Literal × Json))
  deriving Inhabited

namespace Json

/-- A string value that denotes a text. -/
def text (s : String) : Json := .string (some s)

/-- A natural number. -/
def nat (n : Nat) : Json := .number (.integer n)

/-- An array of texts. -/
def texts (items : List String) : Json := .array (items.map text)

/-- An object whose keys denote texts. -/
def record (members : List (String × Json)) : Json :=
  .object (members.map fun m => (some m.1, m.2))

/-! ## Text -/

/-- How one character is written in a string. -/
def escaped (c : Char) : List Char :=
  if c = '"' then ['\\', '"']
  else if c = '\\' then ['\\', '\\']
  else if c.toNat < 0x20 then
    ['\\', 'u', '0', '0'] ++
      (if c.toNat < 0x10 then '0' :: Nat.toDigits 16 c.toNat else Nat.toDigits 16 c.toNat)
  else [c]

/-- A string literal. A literal without text is written as half of a surrogate pair. -/
def renderLiteral : Literal → String
  | some s => "\"" ++ String.ofList (s.toList.flatMap escaped) ++ "\""
  | none => "\"\\ud800\""

mutual

/-- A value as compact text. -/
def render : Json → String
  | .null => "null"
  | .bool b => toString b
  | .number (.integer n) => toString n
  | .number (.decimal text) => text
  | .string s => renderLiteral s
  | .array items => "[" ++ ",".intercalate (renderItems items) ++ "]"
  | .object members => "\x7b" ++ ",".intercalate (renderMembers members) ++ "\x7d"

/-- The items of an array as compact texts. -/
def renderItems : List Json → List String
  | [] => []
  | item :: rest => render item :: renderItems rest

/-- The members of an object as compact texts. -/
def renderMembers : List (Literal × Json) → List String
  | [] => []
  | (key, value) :: rest => (renderLiteral key ++ ":" ++ render value) :: renderMembers rest

end

/-! ## Repeated members -/

mutual

/-- The value with each object reduced to the last of the members of each key. -/
def lastWins : Json → Json
  | .array items => .array (lastWinsItems items)
  | .object members => .object (lastWinsMembers members)
  | other => other

/-- `lastWins` of each item. -/
def lastWinsItems : List Json → List Json
  | [] => []
  | item :: rest => lastWins item :: lastWinsItems rest

/-- `lastWins` of each member's value, without the members whose key comes again. -/
def lastWinsMembers : List (Literal × Json) → List (Literal × Json)
  | [] => []
  | (key, value) :: rest =>
    if rest.any (·.1 = key) then lastWinsMembers rest
    else (key, lastWins value) :: lastWinsMembers rest

end

/-- The value of the first member of a key, if this is an object that has one. -/
def get? : Json → String → Option Json
  | .object members, key => members.lookup (some key)
  | _, _ => none

end Json

end DevfilePush
