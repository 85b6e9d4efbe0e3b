/-!
# Digits

Numbers in positional notation. Letters of either case are the digits from ten on.

## Main definitions

* `digit?`, `digits?`: the value of one digit and of a text of digits.
* `digitsBelow?`: the value of a text of digits if it is below a bound.
* `padded`: a number in decimal with a least width.
-/

namespace DevfilePush.Text

/-- The value of a digit in a base of at most sixteen. -/
def digit? (base : Nat) (c : Char) : Option Nat :=
  let value :=
    if '0' ≤ c ∧ c ≤ '9' then some (c.toNat - '0'.toNat)
    else if 'a' ≤ c ∧ c ≤ 'f' then some (c.toNat - 'a'.toNat + 10)
    else if 'A' ≤ c ∧ c ≤ 'F' then some (c.toNat - 'A'.toNat + 10)
    else none
  value.filter (· < base)

/-- The value of `n` followed by further digits. -/
def moreDigits? (base n : Nat) (cs : List Char) : Option Nat :=
  cs.foldlM (fun n c => (digit? base c).map (n * base + ·)) n

/-- The value of one or more digits. -/
def digits? (base : Nat) (cs : List Char) : Option Nat :=
  if cs.isEmpty then none else moreDigits? base 0 cs

/-- The value of one or more digits if it is below a bound. A number that reaches the bound is given up
at once, so the work does not grow with numbers that are out of range anyway. -/
def digitsBelow? (base bound : Nat) (cs : List Char) : Option Nat :=
  if cs.isEmpty then none
  else cs.foldlM (fun n c => ((digit? base c).map (n * base + ·)).filter (· < bound)) 0

theorem digit?_lt {base n : Nat} {c : Char} (h : digit? base c = some n) : n < base := by
  simpa using (Option.filter_eq_some_iff.1 h).2

theorem moreDigits?_cons (base n : Nat) (c : Char) (cs : List Char) :
    moreDigits? base n (c :: cs) = (digit? base c).bind fun d => moreDigits? base (n * base + d) cs := by
  rw [moreDigits?, List.foldlM_cons]
  cases digit? base c <;> rfl

/-- Further digits never make a number smaller. -/
theorem le_moreDigits? {base n m : Nat} {cs : List Char} (h : moreDigits? base n cs = some m) :
    n ≤ m := by
  induction cs generalizing n with
  | nil => simp_all [moreDigits?]
  | cons c cs ih =>
    obtain ⟨d, hd, hm⟩ := Option.bind_eq_some_iff.1 (moreDigits?_cons base n c cs ▸ h)
    have hbase : 0 < base := Nat.lt_of_le_of_lt d.zero_le (digit?_lt hd)
    exact Nat.le_trans (Nat.le_trans (Nat.le_mul_of_pos_right n hbase) (Nat.le_add_right ..)) (ih hm)

/-- A number that was given up early would have been out of range in the end. -/
theorem foldlM_below_eq_filter {base bound n : Nat} {cs : List Char} (h : cs ≠ [] ∨ n < bound) :
    cs.foldlM (fun n c => ((digit? base c).map (n * base + ·)).filter (· < bound)) n =
      (moreDigits? base n cs).filter (· < bound) := by
  induction cs generalizing n with
  | nil => simpa [moreDigits?, Option.filter] using h
  | cons c cs ih =>
    rw [moreDigits?_cons, List.foldlM_cons]
    cases digit? base c with
    | none => rfl
    | some d =>
      by_cases hd : n * base + d < bound
      · simpa [Option.filter, hd] using ih (.inr hd)
      · have none_below : (moreDigits? base (n * base + d) cs).filter (· < bound) = none := by
          rw [Option.filter_eq_none_iff]
          intro m hm
          have := le_moreDigits? hm
          simp only [decide_eq_true_eq]
          omega
        simpa [Option.filter, hd] using none_below.symm

/-- Giving a number up early gives the same as looking at the whole of it. -/
theorem digitsBelow?_eq_filter (base bound : Nat) (cs : List Char) :
    digitsBelow? base bound cs = (digits? base cs).filter (· < bound) := by
  cases cs with
  | nil => rfl
  | cons c cs => exact foldlM_below_eq_filter (.inl (List.cons_ne_nil c cs))

/-- `n` in decimal, filled with zeros on the left up to `width` digits. -/
def padded (width n : Nat) : String :=
  let digits := toString n
  "".pushn '0' (width - digits.length) ++ digits

end DevfilePush.Text
