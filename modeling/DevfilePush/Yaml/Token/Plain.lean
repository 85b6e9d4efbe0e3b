import DevfilePush.Yaml.Token.Gap

/-!
# Plain scalars

A plain scalar ends before a colon that a gap follows, before a comment, before an indicator of the
flow collection that it stands in, before a document mark, and before a line that is not indented
enough.
-/

namespace DevfilePush.Yaml

/-- A plain scalar that was read, and where the stream goes on. -/
structure PlainScalar where
  text : String
  rest : List Char
  mark : Mark
  /-- Whether a line ended after the last word. -/
  broken : Bool

/-- Whether a character is an indicator of flow collections. -/
def isFlowIndicator (c : Char) : Bool := c = ',' || c = '[' || c = ']' || c = '\x7b' || c = '\x7d'

/-- Whether a plain scalar ends at a line or word that begins here after a gap. -/
def endsAfterGap (flow : Bool) (margin : Nat) (mark : Mark) (cs : List Char) : Bool :=
  (!flow && mark.column < margin) || (mark.column = 0 && atDocumentMark cs) || cs.head? = some '#'

/-- Whether a plain scalar ends at a character. -/
def endsPlain (flow : Bool) (c : Char) (rest : List Char) : Bool :=
  (c = ':' && atGap rest) || (flow && isFlowIndicator c)

/-- Whether a colon stands where a flow collection does not allow it. -/
def isStrayColon (flow : Bool) (c : Char) (rest : List Char) : Bool :=
  flow && c = ':' && rest.head?.any fun d => isFlowIndicator d || d = '?'

/-- Reads a plain scalar; `text` is what was read, in reverse, and `margin` the least column of its
further lines. -/
def readPlain (flow : Bool) (margin : Nat) (text : List Char) (gap : Gap) (inGap : Bool)
    (mark : Mark) : List Char → Except Fault PlainScalar
  | [] => .ok ⟨String.ofList text.reverse, [], mark, gap.broken⟩
  | c :: rest =>
    if isSpace c || isBreak c then
      if gap.broken && mark.column < margin && c = '\t' then
        .error ⟨"a tab violates the indentation", mark⟩
      else readPlain flow margin text (gap.take c) true (mark.after c) rest
    else if inGap && endsAfterGap flow margin mark (c :: rest) then
      .ok ⟨String.ofList text.reverse, c :: rest, mark, gap.broken⟩
    else if isStrayColon flow c rest then .error ⟨"an unexpected colon", mark⟩
    else if endsPlain flow c rest then
      .ok ⟨String.ofList text.reverse, c :: rest, mark, gap.broken⟩
    else readPlain flow margin (c :: gap.close text) .empty false (mark.after c) rest

end DevfilePush.Yaml
