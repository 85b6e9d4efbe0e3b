/-!
# Texts within texts

`occursIn` says whether a text stands somewhere within another; the empty text stands within every
one.
-/

namespace DevfilePush.Text

/-- Whether the characters of `part` follow one another somewhere in a list. -/
def occursInChars (part : List Char) : List Char → Bool
  | [] => part.isEmpty
  | c :: rest => part.isPrefixOf (c :: rest) || occursInChars part rest

/-- Whether `part` stands within `whole`. -/
def occursIn (part whole : String) : Bool := occursInChars part.toList whole.toList

theorem occursInChars_iff {part whole : List Char} :
    occursInChars part whole = true ↔ part <:+: whole := by
  induction whole with
  | nil => simp [occursInChars]
  | cons c rest ih => simp [occursInChars, ih, List.infix_cons_iff]

end DevfilePush.Text
