import DevfilePush.Json.Token

/-!
# Reading JSON

Puts the tokens of a document together to one value. Arrays and objects that are not closed yet are
kept on a stack, so documents may nest to any depth.

## Main definitions

* `Json.ofTokens?`: the value of the tokens of one document.
* `Json.ofText?`, `Json.ofBytes?`: the value of a document.
-/

namespace DevfilePush.Json

/-- An array or object that is not closed yet; what it holds is in reverse. -/
inductive Frame where
  | array (items : List Json)
  | object (members : List (Literal × Json))
  /-- An object with a key whose value is to come. -/
  | member (members : List (Literal × Json)) (key : Literal)

/-- What may come next. -/
inductive Expected where
  | value
  /-- A value, or the end of an empty array. -/
  | valueOrEnd
  | key
  /-- A key, or the end of an empty object. -/
  | keyOrEnd
  | colon
  /-- A comma, or the end of what is open. -/
  | separator
  /-- Nothing: the document's value is complete. -/
  | nothing (value : Json)

/-- Puts a complete value where it belongs. -/
def complete (value : Json) : List Frame → Option (List Frame × Expected)
  | [] => some ([], .nothing value)
  | .array items :: rest => some (.array (value :: items) :: rest, .separator)
  | .member members key :: rest => some (.object ((key, value) :: members) :: rest, .separator)
  | .object _ :: _ => none

/-- Takes a token where a value has to begin. -/
def beginValue (stack : List Frame) : Token → Option (List Frame × Expected)
  | .openArray => some (.array [] :: stack, .valueOrEnd)
  | .openObject => some (.object [] :: stack, .keyOrEnd)
  | .null => complete .null stack
  | .bool b => complete (.bool b) stack
  | .number n => complete (.number n) stack
  | .string s => complete (.string s) stack
  | _ => none

/-- Takes a token where a key has to begin. -/
def beginKey (stack : List Frame) (token : Token) : Option (List Frame × Expected) :=
  match stack, token with
  | .object members :: rest, .string key => some (.member members key :: rest, .colon)
  | _, _ => none

/-- Takes a token that closes what is open. -/
def close (stack : List Frame) (token : Token) : Option (List Frame × Expected) :=
  match stack, token with
  | .array items :: rest, .closeArray => complete (.array items.reverse) rest
  | .object members :: rest, .closeObject => complete (.object members.reverse) rest
  | _, _ => none

/-- Takes one token. -/
def takeToken (stack : List Frame) (expected : Expected) (token : Token) :
    Option (List Frame × Expected) :=
  match expected with
  | .value => beginValue stack token
  | .valueOrEnd => if token = .closeArray then close stack token else beginValue stack token
  | .key => beginKey stack token
  | .keyOrEnd => if token = .closeObject then close stack token else beginKey stack token
  | .colon => if token = .colon then some (stack, .value) else none
  | .separator =>
    if token = .comma then
      match stack with
      | .array _ :: _ => some (stack, .value)
      | .object _ :: _ => some (stack, .key)
      | _ => none
    else close stack token
  | .nothing _ => none

/-- Takes tokens to the end of the document. -/
def takeTokens (stack : List Frame) (expected : Expected) : List Token → Option Json
  | [] =>
    match expected with
    | .nothing value => some value
    | _ => none
  | token :: rest =>
    match takeToken stack expected token with
    | some (stack, expected) => takeTokens stack expected rest
    | none => none

/-- The value of the tokens of a document. -/
def ofTokens? (tokens : List Token) : Option Json := takeTokens [] .value tokens

/-- The value of a document given by its bytes. -/
def ofBytes? (bytes : ByteArray) : Option Json := (Token.ofBytes? bytes).bind ofTokens?

/-- The value of a document. -/
def ofText? (s : String) : Option Json := ofBytes? s.toUTF8

end DevfilePush.Json
