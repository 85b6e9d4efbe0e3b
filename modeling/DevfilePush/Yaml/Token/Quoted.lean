import DevfilePush.Text.Digits
import DevfilePush.Yaml.Token.Gap

/-!
# Quoted scalars

Between single quotes a quote is written twice. Between double quotes a backslash begins an escape;
before a line break it joins the lines.
-/

namespace DevfilePush.Yaml

/-- The character that a one-letter escape stands for. -/
def simpleEscape? : Char → Option Char
  | '0' => some '\x00'
  | 'a' => some '\x07'
  | 'b' => some '\x08'
  | 't' => some '\t'
  | '\t' => some '\t'
  | 'n' => some '\n'
  | 'v' => some '\x0b'
  | 'f' => some '\x0c'
  | 'r' => some '\r'
  | 'e' => some '\x1b'
  | ' ' => some ' '
  | '"' => some '"'
  | '/' => some '/'
  | '\\' => some '\\'
  | 'N' => some '\u0085'
  | '_' => some '\u00a0'
  | 'L' => some '\u2028'
  | 'P' => some '\u2029'
  | _ => none

/-- How many digits follow the letter of an escape for a code point. -/
def codeLength? : Char → Option Nat
  | 'x' => some 2
  | 'u' => some 4
  | 'U' => some 8
  | _ => none

/-- The character of a code point. -/
def charOfCode? (n : Nat) : Option Char :=
  if h : n.isValidChar then some (Char.ofNatAux n h) else none

/-- Where in a quoted scalar a character stands. -/
inductive QuotedPlace where
  | word
  | gap (gap : Gap)
  /-- At the second of two single quotes. -/
  | quote
  /-- After a backslash. -/
  | escape
  /-- In the digits of a code point, of which more than `missing` are to come. -/
  | code (missing value : Nat)

/-- What one character of a quoted scalar does. -/
inductive QuotedStep where
  /-- It ends the scalar. -/
  | closed (text : List Char)
  | next (text : List Char) (place : QuotedPlace)

/-- Takes a character of a word, or the closing quote. -/
def takeWordChar (single : Bool) (text : List Char) (c : Char) (rest : List Char) : QuotedStep :=
  if c = (if single then '\'' else '"') then
    if single && rest.head? = some '\'' then .next text .quote else .closed text
  else if !single && c = '\\' then .next text .escape
  else .next (c :: text) .word

/-- Takes the character after a backslash. -/
def takeEscape (text : List Char) (mark : Mark) (c : Char) : Except Fault QuotedStep :=
  if isBreak c then .ok (.next text (.gap .escapedBreak))
  else match simpleEscape? c, codeLength? c with
    | some d, _ => .ok (.next (d :: text) .word)
    | none, some n => .ok (.next text (.code (n - 1) 0))
    | none, none => .error ⟨"an unknown escape", mark⟩

/-- Takes a digit of a code point. -/
def takeCodeDigit (text : List Char) (missing value : Nat) (mark : Mark) (c : Char) :
    Except Fault QuotedStep :=
  match Text.digit? 16 c, missing with
  | none, _ => .error ⟨"a digit is missing in an escape", mark⟩
  | some digit, missing + 1 => .ok (.next text (.code missing (value * 16 + digit)))
  | some digit, 0 =>
    match charOfCode? (value * 16 + digit) with
    | some d => .ok (.next (d :: text) .word)
    | none => .error ⟨"an escape for no character", mark⟩

/-- Takes one character of a quoted scalar; `text` is what was read, in reverse. -/
def takeQuoted (single : Bool) (text : List Char) (place : QuotedPlace) (mark : Mark) (c : Char)
    (rest : List Char) : Except Fault QuotedStep :=
  match place with
  | .word =>
    if isSpace c || isBreak c then .ok (.next text (.gap (Gap.empty.take c)))
    else .ok (takeWordChar single text c rest)
  | .gap gap =>
    if isSpace c || isBreak c then .ok (.next text (.gap (gap.take c)))
    else if mark.column = 0 && atDocumentMark (c :: rest) then
      .error ⟨"a document mark in a quoted scalar", mark⟩
    else .ok (takeWordChar single (gap.close text) c rest)
  | .quote => .ok (.next (c :: text) .word)
  | .escape => takeEscape text mark c
  | .code missing value => takeCodeDigit text missing value mark c

/-- Reads a quoted scalar up to and with its closing quote; `text` is what was read, in reverse. -/
def readQuoted (single : Bool) (text : List Char) (place : QuotedPlace) (mark : Mark) :
    List Char → Except Fault (String × List Char × Mark)
  | [] => .error ⟨"a quoted scalar without end", mark⟩
  | c :: rest =>
    match takeQuoted single text place mark c rest with
    | .error fault => .error fault
    | .ok (.closed text) => .ok (String.ofList text.reverse, rest, mark.after c)
    | .ok (.next text place) => readQuoted single text place (mark.after c) rest

end DevfilePush.Yaml
