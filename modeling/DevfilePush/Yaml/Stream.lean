/-!
# YAML character streams

A YAML stream is text in UTF-8 that holds printable characters only. The breaks CR, LF, CR LF and NEL
all end a line in the same way and are read as LF; the line and paragraph separators end a line too,
but stay what they are.

## Main definitions

* `Yaml.isPrintable`, `Yaml.isBreak`, `Yaml.isSpace`: the classes of characters.
* `Yaml.charsOfBytes?`: the characters of a stream.
-/

namespace DevfilePush.Yaml

/-- Whether a character may stand in a stream. -/
def isPrintable (c : Char) : Bool :=
  c = '\t' || c = '\n' || c = '\r' || (' ' ≤ c && c ≤ '~') || c = '\u0085' ||
    ('\u00a0' ≤ c && c ≤ '\ufffd') || 0x10000 ≤ c.toNat

/-- Whether a character ends a line. -/
def isBreak (c : Char) : Bool := c = '\n' || c = '\u2028' || c = '\u2029'

/-- Whether a character is a space or a tab. -/
def isSpace (c : Char) : Bool := c = ' ' || c = '\t'

/-- Whether a text ends here or goes on with a space, a tab or a line break. -/
def atGap : List Char → Bool
  | [] => true
  | c :: _ => isSpace c || isBreak c

/-- Reads a break as LF where it is one of the plain ones; the characters before are in reverse, and
`afterReturn` says whether the last of them was CR. -/
def unifyBreaks (before : List Char) (afterReturn : Bool) : List Char → List Char
  | [] => before.reverse
  | '\r' :: rest => unifyBreaks ('\n' :: before) true rest
  | '\n' :: rest => unifyBreaks (if afterReturn then before else '\n' :: before) false rest
  | '\u0085' :: rest => unifyBreaks ('\n' :: before) false rest
  | c :: rest => unifyBreaks (c :: before) false rest

/-- The characters of a stream, if it is text of printable characters. -/
def charsOfBytes? (bytes : ByteArray) : Option (List Char) :=
  match String.fromUTF8? bytes with
  | some text =>
    let chars := text.toList
    if chars.all isPrintable then some (unifyBreaks [] false chars) else none
  | none => none

end DevfilePush.Yaml
