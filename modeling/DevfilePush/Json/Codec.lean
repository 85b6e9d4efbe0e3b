import DevfilePush.Json.Read
import DevfilePush.SortedMap

/-!
# Types with a JSON form

How a value is written as JSON and read back. A record is written as an object with all its fields;
it is read from an object, in which unknown members are ignored and known ones may come in any order
but not twice, or from the array of its fields in declaration order, of which the last may be left out
where they have defaults.

## Main definitions

* `JsonForm`: the class of types with a JSON form.
* `Fields`: the known members of a record.
-/

namespace DevfilePush

/-- A type whose values are written as JSON and read back. -/
class JsonForm (α : Type) where
  toJson : α → Json
  ofJson? : Json → Option α

export JsonForm (toJson ofJson?)

/-! ## Plain values -/

namespace Json

/-- The text of a string. -/
def asText? : Json → Option String
  | .string s => s
  | _ => none

/-- The value of a boolean. -/
def asBool? : Json → Option Bool
  | .bool b => some b
  | _ => none

/-- The value of a number that was written as an integer. -/
def asInt? : Json → Option Int
  | .number (.integer n) => some n
  | _ => none

/-- The value of a natural number below a bound. -/
def asNatBelow? (bound : Nat) (j : Json) : Option Nat :=
  match j.asInt? with
  | some (.ofNat n) => if n < bound then some n else none
  | _ => none

/-- The items of an array. -/
def asArray? : Json → Option (List Json)
  | .array items => some items
  | _ => none

/-- A value read unless it is null. -/
def asOption? {α : Type} (read : Json → Option α) : Json → Option (Option α)
  | .null => some none
  | j => (read j).map some

end Json

instance : JsonForm String := ⟨Json.text, Json.asText?⟩
instance : JsonForm Bool := ⟨Json.bool, Json.asBool?⟩
instance : JsonForm UInt16 :=
  ⟨fun n => Json.nat n.toNat, fun j => (j.asNatBelow? UInt16.size).map UInt16.ofNat⟩
instance : JsonForm UInt64 :=
  ⟨fun n => Json.nat n.toNat, fun j => (j.asNatBelow? UInt64.size).map UInt64.ofNat⟩
instance : JsonForm Int32 where
  toJson n := .number (.integer n.toInt)
  ofJson? j := (j.asInt?.filter fun n => Int32.minValue.toInt ≤ n ∧ n ≤ Int32.maxValue.toInt).map Int32.ofInt

section

variable {α β : Type} [JsonForm α] [JsonForm β]

instance : JsonForm (List α) where
  toJson items := .array (items.map toJson)
  ofJson? j := j.asArray?.bind fun items => items.mapM ofJson?

instance : JsonForm (Option α) where
  toJson value := (value.map toJson).getD .null
  ofJson? := Json.asOption? ofJson?

instance : JsonForm (α × β) where
  toJson pair := .array [toJson pair.1, toJson pair.2]
  ofJson?
    | .array [a, b] => do return (← ofJson? a, ← ofJson? b)
    | _ => none

/-- The entries of an object whose keys denote texts. -/
def Json.asEntries? (read : Json → Option α) : List (Json.Literal × Json) → Option (List (String × α))
  | [] => some []
  | (key, value) :: rest => do
    let key ← key
    let value ← read value
    let entries ← asEntries? read rest
    return (key, value) :: entries

instance : JsonForm (SortedMap String α) where
  toJson m := .record (m.entries.map fun e => (e.1, toJson e.2))
  ofJson?
    | .object members => (Json.asEntries? ofJson? members).map SortedMap.ofList
    | _ => none

end

/-! ## Records -/

/-- The known members of a record, none of them twice. -/
structure Fields where
  members : List (String × Json)

namespace Fields

/-- The members of known names, if no key is broken and no known name comes twice. -/
def ofMembers? (names : List String) : List (Json.Literal × Json) → Option (List (String × Json))
  | [] => some []
  | (key, value) :: rest => do
    let key ← key
    let known ← ofMembers? names rest
    if key ∈ names then
      if known.any (·.1 = key) then none else some ((key, value) :: known)
    else some known

/-- The fields of a record with the given field names, from an object or from an array. -/
def ofJson? (names : List String) : Json → Option Fields
  | .object members => (ofMembers? names members).map Fields.mk
  | .array items => if items.length ≤ names.length then some ⟨names.zip items⟩ else none
  | _ => none

variable {α : Type} [JsonForm α]

/-- The value of a field that must be there. -/
def required (f : Fields) (name : String) : Option α :=
  (f.members.lookup name).bind JsonForm.ofJson?

/-- The value of a field, or its default where it is left out. -/
def orElse (f : Fields) (name : String) (default : α) : Option α :=
  match f.members.lookup name with
  | some j => JsonForm.ofJson? j
  | none => some default

end Fields

end DevfilePush
