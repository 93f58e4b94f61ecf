import NesConsole.Json.Document
import NesConsole.Text.Hex
/-!
# Writing JSON

Two layouts: `compact` on one line, and `pretty` with one item or member per line, indented by two blanks for each level;
empty arrays and objects stay on their line.  Writing puts the document in front of the characters that follow it.
-/
namespace NesConsole

/-- What is written between the tokens of a document. -/
structure JsonLayout where
  /-- Before an item, at its depth. -/
  lineStart : Nat → List Char
  /-- Between a key and its value. -/
  colon : List Char

namespace JsonLayout

def compact : JsonLayout where
  lineStart _ := []
  colon := [':']

def pretty : JsonLayout where
  lineStart depth := '\n' :: List.replicate (2 * depth) ' '
  colon := [':', ' ']

end JsonLayout

def decimalDigit (n : Nat) : Char := Char.ofNat (48 + n)

/-- Decimal digits of a number, with no leading zeros. -/
def natDigits (n : Nat) : List Char :=
  if n < 10 then [decimalDigit n] else natDigits (n / 10) ++ [decimalDigit (n % 10)]

def intDigits : Int → List Char
  | .ofNat n => natDigits n
  | .negSucc n => '-' :: natDigits (n + 1)

namespace Decimal

def write (d : Decimal) (rest : List Char) : List Char :=
  let digits := natDigits d.digits ++ (if d.exponent = 0 ∧ d.digits = 0 then [] else 'e' :: intDigits d.exponent) ++ rest
  if d.negative then '-' :: digits else digits

end Decimal

namespace TextUnit

def escapeCode (code : Nat) : List Char :=
  let digit (n : Nat) : Char := if n < 10 then Char.ofNat (48 + n) else Char.ofNat (87 + n)
  ['\\', 'u', digit (code / 0x1000 % 16), digit (code / 0x100 % 16), digit (code / 0x10 % 16), digit (code % 16)]

def escaped : TextUnit → List Char
  | surrogate code => escapeCode code.toNat
  | char '"' => ['\\', '"']
  | char '\\' => ['\\', '\\']
  | char '\n' => ['\\', 'n']
  | char '\r' => ['\\', 'r']
  | char '\t' => ['\\', 't']
  | char '\x08' => ['\\', 'b']
  | char '\x0c' => ['\\', 'f']
  | char c => if c.toNat < 0x20 then escapeCode c.toNat else [c]

end TextUnit

namespace Text

/-- A string literal. -/
def write (text : Text) (rest : List Char) : List Char :=
  '"' :: text.foldr (fun unit rest => unit.escaped ++ rest) ('"' :: rest)

end Text

namespace Json

mutual

/-- Writes a document that starts at `depth`, before `rest`. -/
def write (layout : JsonLayout) (depth : Nat) : Json → List Char → List Char
  | null, rest => 'n' :: 'u' :: 'l' :: 'l' :: rest
  | bool true, rest => 't' :: 'r' :: 'u' :: 'e' :: rest
  | bool false, rest => 'f' :: 'a' :: 'l' :: 's' :: 'e' :: rest
  | integer value, rest => intDigits value ++ rest
  | decimal value, rest => value.write rest
  | string text, rest => text.write rest
  | array items, rest => '[' :: writeItems layout depth true items rest
  | object members, rest => '{' :: writeMembers layout depth true members rest

/-- Writes the items still to come, and the closing bracket. -/
def writeItems (layout : JsonLayout) (depth : Nat) (first : Bool) : List Json → List Char → List Char
  | [], rest => (if first then [] else layout.lineStart depth) ++ ']' :: rest
  | item :: items, rest =>
    (if first then [] else [',']) ++ layout.lineStart (depth + 1) ++
      write layout (depth + 1) item (writeItems layout depth false items rest)

def writeMembers (layout : JsonLayout) (depth : Nat) (first : Bool) : List (Text × Json) → List Char → List Char
  | [], rest => (if first then [] else layout.lineStart depth) ++ '}' :: rest
  | (key, value) :: members, rest =>
    (if first then [] else [',']) ++ layout.lineStart (depth + 1) ++
      key.write (layout.colon ++ write layout (depth + 1) value (writeMembers layout depth false members rest))

end

/-- The document on one line. -/
def compact (json : Json) : String := String.ofList (json.write .compact 0 [])

/-- The document over several lines. -/
def pretty (json : Json) : String := String.ofList (json.write .pretty 0 [])

end Json
end NesConsole
