import DevfilePush.Text.Printable

/-!
# Quoted text

A text between double quotes in which every character that does not show by itself is written as an
escape: the usual one-letter escapes where there is one, and the code point in braces otherwise.

## Main definitions

* `quoted`: a text between quotes.
* `quotedList`: a list of quoted texts between brackets.
-/

namespace DevfilePush.Text

/-- How one character is written between double quotes. -/
def escaped (c : Char) : List Char :=
  if c = '\x00' then ['\\', '0']
  else if c = '\t' then ['\\', 't']
  else if c = '\r' then ['\\', 'r']
  else if c = '\n' then ['\\', 'n']
  else if c = '\\' ∨ c = '"' then ['\\', c]
  else if showsAlone c then [c]
  else ['\\', 'u', '\x7b'] ++ Nat.toDigits 16 c.toNat ++ ['\x7d']

/-- A text between double quotes. -/
def quoted (s : String) : String :=
  "\"" ++ String.ofList (s.toList.flatMap escaped) ++ "\""

/-- Quoted texts between brackets. -/
def quotedList (items : List String) : String :=
  "[" ++ ", ".intercalate (items.map quoted) ++ "]"

end DevfilePush.Text
