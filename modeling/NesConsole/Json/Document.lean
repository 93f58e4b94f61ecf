/-!
# JSON documents

A document keeps what decides how it can be read: the order of members and repeated keys, numbers written as integers
apart from all others, and strings that name no text because an escape in them is half of a surrogate pair.
-/
namespace NesConsole

/-- One unit of a string literal. -/
inductive TextUnit where
  | char (c : Char)
  /-- The escape of a surrogate that has no partner. -/
  | surrogate (code : UInt16)
  deriving DecidableEq

abbrev Text := List TextUnit

namespace Text

def ofString (s : String) : Text := s.toList.map .char

/-- The text a literal names, none if a surrogate stands alone. -/
def toString? (text : Text) : Option String :=
  String.ofList <$> text.mapM fun
    | .char c => some c
    | .surrogate _ => none

end Text

/-- A number written with a fraction or an exponent, or as `-0`. -/
structure Decimal where
  negative : Bool
  /-- All digits, those of the fraction included. -/
  digits : Nat
  /-- Power of ten to multiply the digits by. -/
  exponent : Int
  deriving DecidableEq

inductive Json where
  | null
  | bool (value : Bool)
  | integer (value : Int)
  | decimal (value : Decimal)
  | string (text : Text)
  | array (items : List Json)
  | object (members : List (Text × Json))

namespace Json

instance : Inhabited Json := ⟨null⟩

def ofString (s : String) : Json := string (Text.ofString s)

def ofNat (n : Nat) : Json := integer n

/-- An object whose keys are plain text. -/
def ofFields (fields : List (String × Json)) : Json :=
  object (fields.map fun (name, value) => (Text.ofString name, value))

end Json
end NesConsole
