import DevfilePush.Json.Value
import DevfilePush.Text.Digits

/-!
# JSON tokens

A document is first cut into brackets, separators, strings and words. The reader takes one octet at a
time, as the character of its number, and keeps only what it needs to know of those before. Only the
strings hold octets beyond ASCII, and only the strings that are wanted have to be text in UTF-8.

## Main definitions

* `Json.Token`
* `Json.Token.ofBytes?`: the tokens of a document, if every one of them is well formed.
-/

namespace DevfilePush.Json

/-- A token of a JSON document. -/
inductive Token where
  | openArray
  | closeArray
  | openObject
  | closeObject
  | comma
  | colon
  | null
  | bool (b : Bool)
  | number (n : Number)
  | string (s : Literal)
  deriving DecidableEq, Repr

/-! ## Words -/

/-- Whether a character may stand in a number or a name. -/
def isWordChar (c : Char) : Bool := c.isAlphanum || c = '+' || c = '-' || c = '.'

/-- Drops the digits at the front, of which there must be one. -/
def skipDigits (cs : List Char) : Option (List Char) :=
  match cs with
  | c :: rest => if c.isDigit then some (rest.dropWhile (·.isDigit)) else none
  | [] => none

/-- Drops a whole part: zero alone, or digits that do not begin with zero. -/
def skipWhole : List Char → Option (List Char)
  | '0' :: rest => some rest
  | cs => skipDigits cs

/-- Drops a fraction, if there is one. -/
def skipFraction : List Char → Option (List Char)
  | '.' :: rest => skipDigits rest
  | cs => some cs

/-- Drops an exponent, if there is one. -/
def skipExponent : List Char → Option (List Char)
  | e :: rest =>
    if e = 'e' ∨ e = 'E' then
      match rest with
      | s :: digits => if s = '+' ∨ s = '-' then skipDigits digits else skipDigits rest
      | [] => none
    else some (e :: rest)
  | [] => some []

/-- A number, if the text has the form of one. -/
def Number.ofChars? (cs : List Char) : Option Number :=
  let (negative, digits) := match cs with
    | '-' :: rest => (true, rest)
    | _ => (false, cs)
  match (((skipWhole digits).bind skipFraction).bind skipExponent) with
  | some [] =>
    match Text.digitsBelow? 10 UInt64.size digits with
    | some n =>
      if negative ∧ n = 0 then some (.decimal (String.ofList cs))
      else some (.integer (if negative then -(n : Int) else n))
    | none => some (.decimal (String.ofList cs))
  | _ => none

/-- The token of a word: a name or a number. -/
def wordToken? (cs : List Char) : Option Token :=
  if cs = "null".toList then some .null
  else if cs = "true".toList then some (.bool true)
  else if cs = "false".toList then some (.bool false)
  else (Number.ofChars? cs).map .number

/-! ## Strings -/

/-- What a string is made of: an octet, or a code unit that was written as an escape. -/
inductive Piece where
  | octet (b : UInt8)
  | unit (n : Nat)
  deriving DecidableEq, Repr

/-- Whether a code unit opens a surrogate pair. -/
def isLeading (n : Nat) : Bool := 0xD800 ≤ n ∧ n < 0xDC00

/-- Whether a code unit closes a surrogate pair. -/
def isTrailing (n : Nat) : Bool := 0xDC00 ≤ n ∧ n < 0xE000

/-- The octets of a string, added in reverse to those before; none if half of a pair is missing. -/
def joinPieces : List UInt8 → List Piece → Option (List UInt8)
  | before, [] => some before.reverse
  | before, .octet b :: rest => joinPieces (b :: before) rest
  | before, .unit n :: rest =>
    let add (code : Nat) := (String.utf8EncodeChar (Char.ofNat code)).reverse ++ before
    if isLeading n then
      match rest with
      | .unit m :: rest' =>
        if isTrailing m then
          joinPieces (add (0x10000 + (n - 0xD800) * 0x400 + (m - 0xDC00))) rest'
        else none
      | _ => none
    else if isTrailing n then none
    else joinPieces (add n) rest

/-- The literal of a string given by its pieces in reverse. -/
def literalOf (reversed : List Piece) : Literal :=
  (joinPieces [] reversed.reverse).bind fun octets => String.fromUTF8? ⟨octets.toArray⟩

/-- The octet of an ASCII character. -/
def Piece.ofChar (c : Char) : Piece := .octet (UInt8.ofNat c.toNat)

/-- The piece that a one-letter escape stands for. -/
def escapePiece? : Char → Option Piece
  | '"' => some (.ofChar '"')
  | '\\' => some (.ofChar '\\')
  | '/' => some (.ofChar '/')
  | 'b' => some (.ofChar '\x08')
  | 'f' => some (.ofChar '\x0c')
  | 'n' => some (.ofChar '\n')
  | 'r' => some (.ofChar '\r')
  | 't' => some (.ofChar '\t')
  | _ => none

/-! ## Documents -/

/-- What the reader knows of the octets before. -/
inductive Place where
  | between
  /-- In a word, given in reverse. -/
  | word (reversed : List Char)
  /-- In a string, given in reverse. -/
  | string (reversed : List Piece)
  /-- After a backslash in a string. -/
  | escape (reversed : List Piece)
  /-- In the digits of an escaped code unit, of which so many are missing. -/
  | unit (reversed : List Piece) (missing value : Nat)

/-- The bracket or separator that a character stands for. -/
def punctuation? : Char → Option Token
  | '[' => some .openArray
  | ']' => some .closeArray
  | '\x7b' => some .openObject
  | '\x7d' => some .closeObject
  | ',' => some .comma
  | ':' => some .colon
  | _ => none

/-- Whether a character may stand anywhere between tokens. -/
def isBlank (c : Char) : Bool := c = ' ' || c = '\t' || c = '\n' || c = '\r'

/-- Takes a character between tokens; the tokens are in reverse. -/
def beginToken (tokens : List Token) (c : Char) : Option (Place × List Token) :=
  if isBlank c then some (.between, tokens)
  else if c = '"' then some (.string [], tokens)
  else if isWordChar c then some (.word [c], tokens)
  else (punctuation? c).map fun token => (.between, token :: tokens)

/-- Takes one octet, given as a character; the tokens are in reverse. -/
def takeChar (tokens : List Token) (place : Place) (c : Char) : Option (Place × List Token) :=
  match place with
  | .between => beginToken tokens c
  | .word reversed =>
    if isWordChar c then some (.word (c :: reversed), tokens)
    else (wordToken? reversed.reverse).bind fun token => beginToken (token :: tokens) c
  | .string reversed =>
    if c = '"' then some (.between, .string (literalOf reversed) :: tokens)
    else if c = '\\' then some (.escape reversed, tokens)
    else if c.toNat < 0x20 then none
    else some (.string (.ofChar c :: reversed), tokens)
  | .escape reversed =>
    if c = 'u' then some (.unit reversed 3 0, tokens)
    else (escapePiece? c).map fun piece => (.string (piece :: reversed), tokens)
  | .unit reversed missing value =>
    (Text.digit? 16 c).map fun digit =>
      let value := value * 16 + digit
      match missing with
      | 0 => (.string (.unit value :: reversed), tokens)
      | missing + 1 => (.unit reversed missing value, tokens)

/-- Takes the octets of a document; the tokens are in reverse. -/
def takeOctets (tokens : List Token) (place : Place) : List UInt8 → Option (List Token)
  | [] =>
    match place with
    | .between => some tokens
    | .word reversed => (wordToken? reversed.reverse).map (· :: tokens)
    | _ => none
  | b :: rest =>
    match takeChar tokens place (Char.ofNat b.toNat) with
    | some (place, tokens) => takeOctets tokens place rest
    | none => none

/-- The tokens of a document. -/
def Token.ofBytes? (bytes : ByteArray) : Option (List Token) :=
  (takeOctets [] .between bytes.toList).map List.reverse

end DevfilePush.Json
