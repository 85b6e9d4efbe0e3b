import DevfilePush.Yaml.Token

/-!
# Gaps within scalars

Between two words of a plain or quoted scalar stand spaces, tabs and line breaks. Blanks on one line
stay; a single line break becomes a space; of several the first disappears; blanks around breaks
disappear. A line or paragraph separator is never folded away.

## Main definitions

* `Yaml.Gap`: what was read since the last word.
* `Yaml.Gap.take`: one more blank or break.
* `Yaml.Gap.close`: the text with what the gap stands for.
-/

namespace DevfilePush.Yaml

/-- What was read since the last word. All lists are in reverse. -/
structure Gap where
  /-- Spaces and tabs before any break. -/
  blanks : List Char
  /-- The first break. -/
  first : Option Char
  /-- Further breaks. -/
  further : List Char
  /-- Whether the line ended, with a break that counts or with an escaped one. -/
  broken : Bool
  deriving DecidableEq, Repr

namespace Gap

/-- Nothing was read. -/
def empty : Gap := ⟨[], none, [], false⟩

/-- The line ended with an escaped break. -/
def escapedBreak : Gap := ⟨[], none, [], true⟩

/-- One more blank or break. -/
def take (g : Gap) (c : Char) : Gap :=
  if isBreak c then
    if g.broken then { g with further := c :: g.further } else ⟨[], some c, [], true⟩
  else if g.broken then g
  else { g with blanks := c :: g.blanks }

/-- The text, in reverse, with what the gap stands for. -/
def close (g : Gap) (text : List Char) : List Char :=
  if !g.broken then g.blanks ++ text
  else match g.first with
    | some '\n' => if g.further.isEmpty then ' ' :: text else g.further ++ text
    | some c => g.further ++ c :: text
    | none => g.further ++ text

end Gap

end DevfilePush.Yaml
