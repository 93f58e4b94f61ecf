import NesConsole.Json.Document
/-!
# Typed reading of documents

Records, lists, numbers and variants, read strictly: integers must be written as integers and be in range, a known field
must not be repeated, and a field that is missing is an error unless its reader has a value for it.  Unknown fields are
skipped without a look at their values.

A record may also stand as the array of its fields in order.  A variant without fields is its name, or an object with
its name as only key and `null` as value.  A tagged record is an object with the variant's name under a tag, or an array
that starts with the name; its fields are read before the variant is known, so every value in it, skipped or not, must
be one that can be held: strings that name a text, numbers that fit a double, and no deep nesting.
-/
namespace NesConsole
namespace Json

/-! ## Values -/

def natBelow? (bound : Nat) : Json → Option Nat
  | integer n => if 0 ≤ n ∧ n < bound then some n.toNat else none
  | _ => none

def uint8? (json : Json) : Option UInt8 := UInt8.ofNat <$> json.natBelow? UInt8.size

def uint16? (json : Json) : Option UInt16 := UInt16.ofNat <$> json.natBelow? UInt16.size

def uint32? (json : Json) : Option UInt32 := UInt32.ofNat <$> json.natBelow? UInt32.size

def int16? : Json → Option Int16
  | integer n => if -0x8000 ≤ n ∧ n < 0x8000 then some (Int16.ofInt n) else none
  | _ => none

def bool? : Json → Option Bool
  | bool value => some value
  | _ => none

def string? : Json → Option String
  | string text => text.toString?
  | _ => none

def list? {α : Type} (item? : Json → Option α) : Json → Option (List α)
  | array items => items.mapM item?
  | _ => none

def bytes? (json : Json) : Option (Array UInt8) := List.toArray <$> json.list? uint8?

def vector? {α : Type} (size : Nat) (item? : Json → Option α) (json : Json) : Option (Vector α size) := do
  let items ← json.list? item?
  if h : items.length = size then some ⟨items.toArray, by simpa using h⟩ else none

def variant? : Json → Option String
  | string text => text.toString?
  | object [(key, null)] => key.toString?
  | _ => none

/-! ## Records -/

/-- Members under the texts of their keys. -/
def named? (members : List (Text × Json)) : Option (List (String × Json)) :=
  members.mapM fun (key, value) => (·, value) <$> key.toString?

/-- The values of the fields with these names, none for a field that is missing.  Of a record written as an array the
last `omissible` fields may be left off. -/
def record? (names : List String) (omissible : Nat) : Json → Option (List (Option Json))
  | array items =>
    if items.length ≤ names.length ∧ names.length ≤ items.length + omissible then
      some (items.map some ++ List.replicate (names.length - items.length) none)
    else
      none
  | object members => do
    let members ← named? members
    let fields := names.map fun name => (members.filter (·.1 = name)).map (·.2)
    if fields.any fun values => 1 < values.length then none else some (fields.map List.head?)
  | _ => none

/-- A field that may be missing or `null`. -/
def optional? {α : Type} (value? : Json → Option α) : Option Json → Option (Option α)
  | none | some null => some none
  | some json => some <$> value? json

/-- A field that has a value when it is missing. -/
def defaulted? {α : Type} (default : α) (value? : Json → Option α) : Option Json → Option α
  | none => some default
  | some json => value? json

/-! ## Tagged records -/

/-- Whether `digits · 10 ^ exponent` is below the bound at which doubles round to infinity, which has 309 digits. -/
def fitsDouble (digits : Nat) (exponent : Int) : Bool :=
  let bound := Nat.pow 2 1024 - Nat.pow 2 970
  let size := ((Nat.toDigits 10 digits).length : Int) + exponent
  if digits = 0 ∨ size < 309 then true
  else if 309 < size then false
  else
    match exponent with
    | .ofNat e => digits * Nat.pow 10 e < bound
    | .negSucc e => digits < bound * Nat.pow 10 (e + 1)

/-- How deep the values of a channel may nest: a document nests at most 127 deep, and a channel is the fourth level of a
snapshot. -/
def holdableDepth : Nat := 123

/-- Whether a value can be held before its meaning is known. -/
def holdable : Nat → Json → Bool
  | _, null | _, bool _ => true
  | _, integer n => fitsDouble n.natAbs 0
  | _, decimal d => fitsDouble d.digits d.exponent
  | _, string text => text.toString?.isSome
  | 0, array _ | 0, object _ => false
  | depth + 1, array items => items.all (holdable depth)
  | depth + 1, object members => members.all fun (key, value) => key.toString?.isSome && holdable depth value

/-- The variant's name and the other fields of a tagged record. -/
def tagged? (tag : String) : Json → Option (String × Json)
  | array (name :: items) =>
    if items.all (holdable holdableDepth) then (·, array items) <$> name.string? else none
  | object members => do
    let named ← named? members
    if named.all fun (_, value) => holdable holdableDepth value then
      match named.filter (·.1 = tag) with
      | [(_, name)] => (·, object (members.filter (·.1 ≠ Text.ofString tag))) <$> name.string?
      | _ => none
    else
      none
  | _ => none

end Json
end NesConsole
