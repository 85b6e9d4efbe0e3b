import DevfilePush.Text.Digits

/-!
# Internet addresses

Reads the text of an address: four decimal octets, or eight groups of hexadecimal digits of which one
run may be left out as `::` and the last two may be written as octets. An octet has no leading zero
and a group has at most four digits; there is no zone.

## Main definitions

* `Address`, `Address.ofText?`
* `Address.isLoopback`: `127.0.0.0/8` and `::1`.
-/

namespace DevfilePush

/-- An internet address of either version. -/
inductive Address where
  /-- Four octets. -/
  | v4 (octets : List Nat)
  /-- Eight groups of sixteen bits. -/
  | v6 (groups : List Nat)
  deriving DecidableEq, Repr

namespace Address

/-- An octet: one to three decimal digits, no leading zero, at most 255. -/
def octet? (cs : List Char) : Option Nat :=
  if 3 < cs.length ∨ (1 < cs.length ∧ cs.head? = some '0') then none
  else (Text.digits? 10 cs).filter (· < 256)

/-- Cuts a text at each of the separators. -/
def split (separator : Char) : List Char → List (List Char)
  | [] => [[]]
  | c :: rest =>
    if c = separator then [] :: split separator rest
    else match split separator rest with
      | [] => [[c]]
      | part :: parts => (c :: part) :: parts

/-- Four octets between points. -/
def octets? (cs : List Char) : Option (List Nat) :=
  let parts := split '.' cs
  if parts.length = 4 then parts.mapM octet? else none

/-- A group: one to four hexadecimal digits. -/
def group? (cs : List Char) : Option Nat :=
  if 4 < cs.length then none else Text.digits? 16 cs

/-- The two groups that four octets stand for. -/
def groupsOfOctets : List Nat → Option (List Nat)
  | [a, b, c, d] => some [a * 256 + b, c * 256 + d]
  | _ => none

/-- The groups of the parts between colons; octets may stand at the end only, if they are allowed. -/
def groups? (octetsAllowed : Bool) : List (List Char) → Option (List Nat)
  | [] => some []
  | [last] =>
    if octetsAllowed ∧ '.' ∈ last then (octets? last).bind groupsOfOctets
    else (group? last).map ([·])
  | part :: parts => do
    let group ← group? part
    let groups ← groups? octetsAllowed parts
    return group :: groups

/-- The groups of a text between colons, none if the text is empty. -/
def run? (octetsAllowed : Bool) (cs : List Char) : Option (List Nat) :=
  if cs.isEmpty then some [] else groups? octetsAllowed (split ':' cs)

/-- The text before and after the first `::`, if there is one. -/
def gap? : List Char → Option (List Char × List Char)
  | ':' :: ':' :: rest => some ([], rest)
  | c :: rest => (gap? rest).map fun (before, after) => (c :: before, after)
  | [] => none

/-- Eight groups, or fewer with the gap filled by at least one group of zeros. -/
def v6? (cs : List Char) : Option Address :=
  match gap? cs with
  | none => do
    let groups ← run? true cs
    if groups.length = 8 then some (.v6 groups) else none
  | some (before, after) => do
    let head ← run? false before
    let tail ← run? true after
    if head.length + tail.length < 8 then
      some (.v6 (head ++ List.replicate (8 - head.length - tail.length) 0 ++ tail))
    else none

/-- Reads an address. -/
def ofText? (text : String) : Option Address :=
  match octets? text.toList with
  | some octets => some (.v4 octets)
  | none => v6? text.toList

/-- Whether an address leads back to the host itself. -/
def isLoopback : Address → Bool
  | .v4 octets => octets.head? = some 127
  | .v6 groups => groups = [0, 0, 0, 0, 0, 0, 0, 1]

end Address

end DevfilePush
