import DevfilePush.Text.Digits

/-!
# Durations

A length of time in nanoseconds, and its text: the largest of the units s, ms, µs and ns that gives
a nonzero whole part, with the fraction written out and its trailing zeros dropped.

## Main definitions

* `Duration`, `Duration.ofSeconds`, `Duration.ofParts`
* `Duration.text`
-/

namespace DevfilePush

/-- A length of time. -/
structure Duration where
  /-- Its nanoseconds. -/
  nanoseconds : Nat
  deriving DecidableEq, Repr, Inhabited

namespace Duration

/-- A whole number of seconds. -/
def ofSeconds (s : Nat) : Duration := ⟨s * 1000000000⟩

/-- Seconds and further nanoseconds, which may exceed a second. -/
def ofParts (s ns : Nat) : Duration := ⟨s * 1000000000 + ns⟩

/-- The length in whole milliseconds, rounded down. -/
def milliseconds (d : Duration) : Nat := d.nanoseconds / 1000000

@[simp] theorem milliseconds_ofSeconds (s : Nat) : (ofSeconds s).milliseconds = s * 1000 := by
  simp only [milliseconds, ofSeconds]; omega

/-- `n` units of `10 ^ places` nanoseconds as a decimal, without trailing zeros. -/
def inUnit (places n : Nat) (unit : String) : String :=
  let size := Nat.pow 10 places
  let fraction := n % size
  let digits := ((Text.padded places fraction).toList.reverse.dropWhile (· = '0')).reverse
  toString (n / size) ++ (if fraction = 0 then "" else "." ++ String.ofList digits) ++ unit

/-- The duration in the largest unit that gives it a nonzero whole part. -/
def text (d : Duration) : String :=
  if 1000000000 ≤ d.nanoseconds then inUnit 9 d.nanoseconds "s"
  else if 1000000 ≤ d.nanoseconds then inUnit 6 d.nanoseconds "ms"
  else if 1000 ≤ d.nanoseconds then inUnit 3 d.nanoseconds "µs"
  else inUnit 0 d.nanoseconds "ns"

end Duration

end DevfilePush
