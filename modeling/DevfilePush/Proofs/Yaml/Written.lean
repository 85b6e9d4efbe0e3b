import DevfilePush.Proofs.Yaml.Reading
import Mathlib.Data.Nat.Basic

/-!
# Data as they are written

Records, lists, texts and numbers are written in one way and may be read in several. How each is to stand
in a document for it to be read back is laid down here: a number in decimal and a text so that it is not
taken for anything else.

## Main definitions

* `Yaml.Data`: what is written.
* `Yaml.Node.Holds`: the data that a node holds as they are written.

## Main statements

* `Yaml.naturalOfWord?_toString`: a number is read back from its decimal form.
-/

namespace DevfilePush.Yaml

/-! ## Numbers in decimal -/

/-- A digit stands for its value. -/
theorem digit?_of_isDigit {c : Char} (h : c.isDigit = true) :
    Text.digit? 10 c = some (c.toNat - '0'.toNat) := by
  obtain ⟨low, high⟩ := Char.isDigit_iff_toNat.1 h
  have hrange : '0' ≤ c ∧ c ≤ '9' := ⟨low, high⟩
  have hbelow : c.toNat - '0'.toNat < 10 := by
    have : '9'.toNat = 57 := rfl
    have : '0'.toNat = 48 := rfl
    omega
  simp only [Text.digit?, if_pos hrange, Option.filter, decide_eq_true hbelow, if_true]

theorem moreDigits?_of_isDigit {cs : List Char} (h : ∀ c ∈ cs, c.isDigit = true) (n : Nat) :
    Text.moreDigits? 10 n cs = some (Nat.ofDigitChars 10 cs n) := by
  induction cs generalizing n with
  | nil => rfl
  | cons c cs ih =>
    obtain ⟨hc, hcs⟩ := List.forall_mem_cons.1 h
    rw [Text.moreDigits?_cons, digit?_of_isDigit hc, Option.bind_some, ih hcs, Nat.ofDigitChars_cons,
      Nat.mul_comm n 10]

theorem isDigit_of_mem_toDigits {n : Nat} : ∀ c ∈ Nat.toDigits 10 n, c.isDigit = true :=
  fun _ hc => Nat.isDigit_of_mem_toDigits (by decide) (by decide) hc

theorem digits?_toDigits (n : Nat) : Text.digits? 10 (Nat.toDigits 10 n) = some n := by
  have hne : (Nat.toDigits 10 n).isEmpty = false := by simp [Nat.toDigits_ne_nil]
  rw [Text.digits?, hne, if_neg Bool.false_ne_true, moreDigits?_of_isDigit isDigit_of_mem_toDigits,
    Nat.ofDigitChars_ten_toDigits]

/-- Only zero begins with a zero. -/
theorem head?_toDigits_ne {n : Nat} (h : n ≠ 0) : (Nat.toDigits 10 n).head? ≠ some '0' := by
  induction n using Nat.strongRecOn with
  | ind n ih =>
    rw [Nat.toDigits_eq_if (by decide)]
    split
    · rw [List.head?_cons]
      intro hzero
      exact h (by simpa using Option.some.inj hzero)
    · have hne : Nat.toDigits 10 (n / 10) ≠ [] := Nat.toDigits_ne_nil
      rw [List.head?_append_of_ne_nil _ hne]
      exact ih (n / 10) (by omega) (by omega)

theorem hasLeadingZero_toDigits (n : Nat) : hasLeadingZero (Nat.toDigits 10 n) = false := by
  by_cases hn : n = 0
  · subst hn
    rfl
  · simp [hasLeadingZero, head?_toDigits_ne hn]

/-- What holds nothing but digits names no other base. -/
theorem basedValue?_of_isDigit {bound : Nat} {cs : List Char} (h : ∀ c ∈ cs, c.isDigit = true) :
    basedValue? bound cs = none := by
  unfold basedValue?
  split
  · exact absurd (h 'x' (by simp)) (by decide)
  · exact absurd (h 'o' (by simp)) (by decide)
  · exact absurd (h 'b' (by simp)) (by decide)
  · rfl

/-- A number is read back from its decimal form. -/
theorem naturalOfWord?_toString {bound n : Nat} (h : n < bound) :
    naturalOfWord? bound (toString n) = some n := by
  have hchars : (toString n).toList = Nat.toDigits 10 n := Nat.toList_repr
  unfold naturalOfWord?
  rw [hchars]
  split
  · rename_i rest hplus
    have hdigit := isDigit_of_mem_toDigits (n := n) '+' (hplus ▸ List.mem_cons_self)
    exact absurd hdigit (by decide)
  · dsimp only
    rw [basedValue?_of_isDigit isDigit_of_mem_toDigits, hasLeadingZero_toDigits,
      Text.digitsBelow?_eq_filter, digits?_toDigits]
    simp [Option.filter, h]

/-! ## Data -/

/-- What is written. -/
inductive Data where
  | text (text : String)
  | number (n : Nat)
  | list (items : List Data)
  | record (entries : List (String × Data))

/-- A scalar is never taken for the word for nothing. -/
def Unmistakable (text : String) (style : ScalarStyle) (tag : Option Tag) : Prop :=
  style = .plain → tag = none ∧ text.isEmpty = false ∧ isNullWord text = false

/-- The node holds the data as they are written: a number in decimal, a text that is not taken for
nothing, the items of a list in their order and the entries of a record in theirs. -/
inductive Node.Holds : Node → Data → Prop
  | text {text : String} {style : ScalarStyle} {tag : Option Tag} (h : Unmistakable text style tag) :
      Node.Holds (.scalar text style tag) (.text text)
  | number {n : Nat} : Node.Holds (.scalar (toString n) .plain none) (.number n)
  | list {nodes : List Node} {items : List Data} (h : List.Forall₂ Node.Holds nodes items) :
      Node.Holds (.sequence nodes) (.list items)
  | record {raw : List (Node × Node)} {entries : List (String × Data)}
      (keys : List.Forall₂ Node.Holds (raw.map (·.1)) (entries.map (.text ·.1)))
      (values : List.Forall₂ Node.Holds (raw.map (·.2)) (entries.map (·.2))) :
      Node.Holds (.mapping raw) (.record entries)

namespace Node.Holds

variable {d : Document} {node : Node}

theorem isText {text : String} (h : node.Holds (.text text)) : d.IsText node text := by
  cases h
  exact ⟨_, _, rfl⟩

theorem isOptionalText {text : String} (h : node.Holds (.text text)) :
    d.IsOptionalText node (some text) := by
  cases h with
  | @text _ style tag h =>
    cases style with
    | plain =>
      obtain ⟨rfl, hempty, hnull⟩ := h rfl
      simp [Document.IsOptionalText, Document.resolve, optionalTextOf?, hempty, hnull]
    | _ => rfl

theorem isNatural {n bound : Nat} (h : node.Holds (.number n)) (hn : n < bound) :
    d.IsNatural bound node n := by
  cases h
  exact ⟨toString n, rfl, naturalOfWord?_toString hn⟩

/-- The items of a list are the nodes that hold its data. -/
theorem isList {items : List Data} (h : node.Holds (.list items)) :
    ∃ nodes, d.IsList node nodes ∧ List.Forall₂ Node.Holds nodes items := by
  cases h with
  | list h => exact ⟨_, .inl rfl, h⟩

/-- The entries of a record have its names and hold its data. -/
theorem isRecord {entries : List (String × Data)} (h : node.Holds (.record entries)) :
    ∃ nodes : List Node, d.IsRecord node ((entries.map (·.1)).zip nodes) ∧
      List.Forall₂ Node.Holds nodes (entries.map (·.2)) := by
  cases h with
  | @record raw _ keys values =>
    refine ⟨raw.map (·.2), .mapping rfl ?_, values⟩
    induction raw generalizing entries with
    | nil => simp
    | cons kv raw ih =>
      cases entries with
      | nil => cases keys
      | cons e entries =>
        obtain ⟨hkey, keys⟩ := List.forall₂_cons.1 keys
        obtain ⟨-, values⟩ := List.forall₂_cons.1 values
        exact .cons ⟨hkey.isText, rfl⟩ (ih keys values)

theorem direct {data : Data} (h : node.Holds data) : node.Direct := by
  rintro id rfl
  cases h

end Node.Holds

end DevfilePush.Yaml
