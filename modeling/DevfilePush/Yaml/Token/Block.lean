import DevfilePush.Yaml.Token

/-!
# Block scalars

A block scalar is made of the lines that are indented as far as its first line, or as far as its
header says. In a literal scalar line breaks stay; in a folded one a single break between two lines
that begin with a word becomes a space. The header also says what becomes of the last break and of
empty lines at the end.
-/

namespace DevfilePush.Yaml

/-- What becomes of the breaks at the end of a block scalar. -/
inductive Chomping where
  /-- The last break stays, empty lines go. -/
  | clip
  /-- All go. -/
  | strip
  /-- All stay. -/
  | keep
  deriving DecidableEq, Repr

/-- What was read of a block scalar. All lists are in reverse. -/
structure BlockText where
  text : List Char
  /-- The break after the last line. -/
  lineBreak : Option Char
  /-- The breaks of empty lines after it. -/
  emptyLines : List Char
  /-- The indentation; zero until it is known. -/
  indent : Nat
  /-- The widest indentation seen before it is known. -/
  widest : Nat
  /-- Whether the last line begins with a blank. -/
  blankStart : Bool

namespace BlockText

/-- Nothing was read; the indentation is known if the header says it. -/
def start (indent : Nat) : BlockText := ⟨[], none, [], indent, 0, false⟩

/-- Whether more spaces at this column would belong to the indentation. -/
def isIndenting (b : BlockText) (column : Nat) : Bool := b.indent = 0 || column < b.indent

/-- Takes the indentation from what was seen, if the header does not say it. -/
def decideIndent (b : BlockText) (margin : Nat) : BlockText :=
  if b.indent = 0 then { b with indent := max b.widest (max margin 1) } else b

/-- The text with the breaks before a line that begins with a blank or with a word. -/
def beginLine (b : BlockText) (folded blank : Bool) : BlockText :=
  let joined :=
    if folded && b.lineBreak = some '\n' && !b.blankStart && !blank then
      if b.emptyLines.isEmpty then ' ' :: b.text else b.text
    else b.lineBreak.toList ++ b.text
  { b with
    text := b.emptyLines ++ joined
    lineBreak := none
    emptyLines := []
    blankStart := blank }

/-- The text of the scalar. -/
def finish (b : BlockText) (chomping : Chomping) : String :=
  let chars := match chomping with
    | .strip => b.text
    | .clip => b.lineBreak.toList ++ b.text
    | .keep => b.emptyLines ++ (b.lineBreak.toList ++ b.text)
  String.ofList chars.reverse

end BlockText

/-- Reads the lines of a block scalar; `margin` is one more than the column of the surrounding block. -/
def readBlock (folded : Bool) (margin : Nat) (b : BlockText) (inLine : Bool) (mark : Mark) :
    List Char → Except Fault (BlockText × List Char × Mark)
  | [] => .ok (b, [], mark)
  | c :: rest =>
    if inLine then
      if isBreak c then
        readBlock folded margin { b with lineBreak := some c } false mark.nextLine rest
      else readBlock folded margin { b with text := c :: b.text } true (mark.after c) rest
    else if b.isIndenting mark.column && c = ' ' then
      readBlock folded margin b false (mark.after c) rest
    else
      let seen := { b with widest := max b.widest mark.column }
      if b.isIndenting mark.column && c = '\t' then
        .error ⟨"a tab where indentation is expected", mark⟩
      else if isBreak c then
        readBlock folded margin { seen with emptyLines := c :: seen.emptyLines } false
          mark.nextLine rest
      else
        let known := seen.decideIndent margin
        if mark.column = known.indent then
          let line := known.beginLine folded (isSpace c)
          readBlock folded margin { line with text := c :: line.text } true (mark.after c) rest
        else .ok (known, c :: rest, mark)

/-- The header of a block scalar. -/
structure BlockHeader where
  chomping : Chomping
  /-- How much further than the surrounding block the lines are indented; zero if it is not said. -/
  increment : Nat

/-- The chomping that a sign stands for. -/
def chompingOf? : Char → Option Chomping
  | '+' => some .keep
  | '-' => some .strip
  | _ => none

/-- Reads an indentation digit, if there is one. -/
def readIncrement (mark : Mark) : List Char → Except Fault (Nat × List Char)
  | c :: rest =>
    if !c.isDigit then .ok (0, c :: rest)
    else if c = '0' then .error ⟨"an indentation of zero", mark⟩
    else .ok (c.toNat - '0'.toNat, rest)
  | [] => .ok (0, [])

/-- Reads a header's signs after the indicator, in either order. -/
def readHeader (mark : Mark) (cs : List Char) : Except Fault (BlockHeader × List Char) :=
  match cs with
  | c :: rest =>
    match chompingOf? c with
    | some chomping => do
      let (increment, rest) ← readIncrement mark rest
      return (⟨chomping, increment⟩, rest)
    | none => do
      let (increment, rest) ← readIncrement mark cs
      match rest with
      | d :: rest' =>
        match chompingOf? d with
        | some chomping => return (⟨chomping, increment⟩, rest')
        | none => return (⟨.clip, increment⟩, rest)
      | [] => return (⟨.clip, increment⟩, [])
  | [] => .ok (⟨.clip, 0⟩, [])

/-- Skips blanks and a comment up to the end of the line, which must follow. -/
def skipLineEnd (mark : Mark) (cs : List Char) : Except Fault (List Char × Mark) :=
  let (blanks, rest) := cs.span isSpace
  let (comment, rest) := if rest.head? = some '#' then rest.span (!isBreak ·) else ([], rest)
  let mark := (blanks ++ comment).foldl Mark.after mark
  match rest with
  | [] => .ok ([], mark)
  | c :: rest => if isBreak c then .ok (rest, mark.nextLine)
    else .error ⟨"a comment or the end of the line is expected", mark⟩

/-- Reads a block scalar after its indicator. -/
def readBlockScalar (folded : Bool) (margin : Nat) (mark : Mark) (cs : List Char) :
    Except Fault (String × List Char × Mark) := do
  let (header, rest) ← readHeader mark cs
  let (lines, mark) ← skipLineEnd (mark.advance (cs.length - rest.length)) rest
  let indent := if header.increment = 0 then 0 else margin - 1 + header.increment
  let (b, rest, mark) ← readBlock folded margin (.start indent) false mark lines
  return (b.finish header.chomping, rest, mark)

end DevfilePush.Yaml
