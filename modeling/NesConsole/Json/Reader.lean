import NesConsole.Json.Document
/-!
# Reading JSON

The strict grammar: no byte order mark, no trailing characters, no leading zeros, no raw control characters in strings.
Each scanner takes the characters still to come and gives what it read together with the rest.
-/
namespace NesConsole
namespace Json

def isBlank (c : Char) : Bool :=
  c == ' ' || c == '\n' || c == '\t' || c == '\r'

def skipBlanks (cs : List Char) : List Char := cs.dropWhile isBlank

/-! ## Strings -/

def hexValue? (c : Char) : Option Nat :=
  if '0' ≤ c ∧ c ≤ '9' then some (c.toNat - '0'.toNat)
  else if 'a' ≤ c ∧ c ≤ 'f' then some (c.toNat - 'a'.toNat + 10)
  else if 'A' ≤ c ∧ c ≤ 'F' then some (c.toNat - 'A'.toNat + 10)
  else none

def codeUnit? (a b c d : Char) : Option Nat := do
  return (((← hexValue? a) * 16 + (← hexValue? b)) * 16 + (← hexValue? c)) * 16 + (← hexValue? d)

def isHighSurrogate (unit : Nat) : Bool := 0xD800 ≤ unit && unit < 0xDC00

def isLowSurrogate (unit : Nat) : Bool := 0xDC00 ≤ unit && unit < 0xE000

/-- The unit of a code unit that is not paired. -/
def loneUnit (unit : Nat) : TextUnit :=
  if isHighSurrogate unit || isLowSurrogate unit then .surrogate (UInt16.ofNat unit) else .char (Char.ofNat unit)

def pairedChar (high low : Nat) : Char :=
  Char.ofNat (0x10000 + (high - 0xD800) * 0x400 + (low - 0xDC00))

/-- The character a one-letter escape stands for. -/
def simpleEscape? : Char → Option Char
  | '"' => some '"'
  | '\\' => some '\\'
  | '/' => some '/'
  | 'b' => some '\x08'
  | 'f' => some '\x0c'
  | 'n' => some '\n'
  | 'r' => some '\r'
  | 't' => some '\t'
  | _ => none

/-- The rest of a string literal behind its opening quote.  `read` holds the units read so far, last first. -/
def scanString (read : Text) : List Char → Option (Text × List Char)
  | [] => none
  | '"' :: rest => some (read.reverse, rest)
  | '\\' :: 'u' :: a :: b :: c :: d :: rest =>
    match codeUnit? a b c d, rest with
    | none, _ => none
    | some high, '\\' :: 'u' :: e :: f :: g :: h :: rest' =>
      match codeUnit? e f g h with
      | none => none
      | some low =>
        if isHighSurrogate high && isLowSurrogate low then
          scanString (.char (pairedChar high low) :: read) rest'
        else
          scanString (loneUnit high :: read) ('\\' :: 'u' :: e :: f :: g :: h :: rest')
    | some unit, rest => scanString (loneUnit unit :: read) rest
  | '\\' :: c :: rest =>
    match simpleEscape? c with
    | none => none
    | some c => scanString (.char c :: read) rest
  | c :: rest => if c.toNat < 0x20 then none else scanString (.char c :: read) rest

/-! ## Numbers -/

def digitValue (digits : List Char) : Nat :=
  digits.foldl (fun n c => n * 10 + (c.toNat - '0'.toNat)) 0

/-- One digit or more. -/
def scanDigits (cs : List Char) : Option (List Char × List Char) :=
  let (digits, rest) := cs.span Char.isDigit
  if digits.isEmpty then none else some (digits, rest)

/-- The digits before the point: a zero stands alone. -/
def scanWhole (cs : List Char) : Option (List Char × List Char) := do
  let (digits, rest) ← scanDigits cs
  if digits.head? = some '0' ∧ 1 < digits.length then none else some (digits, rest)

/-- The digits behind the point; none at all if there is no point. -/
def scanFraction : List Char → Option (List Char × List Char)
  | '.' :: rest => scanDigits rest
  | cs => some ([], cs)

def scanExponent : List Char → Option (Option Int × List Char)
  | c :: rest =>
    if c = 'e' ∨ c = 'E' then
      let (negative, rest) := match rest with
        | '+' :: rest => (false, rest)
        | '-' :: rest => (true, rest)
        | rest => (false, rest)
      match scanDigits rest with
      | none => none
      | some (digits, rest) => some (some (if negative then -(digitValue digits : Int) else digitValue digits), rest)
    else
      some (none, c :: rest)
  | [] => some (none, [])

/-- The number a sign, digits and an exponent name.  Only a plain integer other than `-0` is one. -/
def numberOf (negative : Bool) (whole fraction : List Char) (exponent : Option Int) : Json :=
  let value := digitValue whole
  if fraction.isEmpty ∧ exponent = none ∧ ¬ (negative ∧ value = 0) then
    integer (if negative then -(value : Int) else value)
  else
    decimal
      { negative, digits := digitValue (whole ++ fraction), exponent := exponent.getD 0 - (fraction.length : Int) }

def scanNumber (cs : List Char) : Option (Json × List Char) := do
  let (negative, cs) := match cs with
    | '-' :: rest => (true, rest)
    | cs => (false, cs)
  let (whole, cs) ← scanWhole cs
  let (fraction, cs) ← scanFraction cs
  let (exponent, cs) ← scanExponent cs
  return (numberOf negative whole fraction exponent, cs)

/-! ## Values -/

mutual

/-- A value, behind any blanks.  The first argument bounds the work; twice the number of characters is enough. -/
def scanValue : Nat → List Char → Option (Json × List Char)
  | 0, _ => none
  | fuel + 1, cs =>
    match skipBlanks cs with
    | 'n' :: 'u' :: 'l' :: 'l' :: rest => some (null, rest)
    | 't' :: 'r' :: 'u' :: 'e' :: rest => some (bool true, rest)
    | 'f' :: 'a' :: 'l' :: 's' :: 'e' :: rest => some (bool false, rest)
    | '"' :: rest => (scanString [] rest).map fun (text, rest) => (string text, rest)
    | '[' :: rest =>
      match skipBlanks rest with
      | ']' :: rest => some (array [], rest)
      | rest => scanItems fuel [] rest
    | '{' :: rest =>
      match skipBlanks rest with
      | '}' :: rest => some (object [], rest)
      | rest => scanMembers fuel [] rest
    | cs => scanNumber cs

def scanItems : Nat → List Json → List Char → Option (Json × List Char)
  | 0, _, _ => none
  | fuel + 1, read, cs =>
    match scanValue fuel cs with
    | none => none
    | some (item, rest) =>
      match skipBlanks rest with
      | ',' :: rest => scanItems fuel (item :: read) rest
      | ']' :: rest => some (array (item :: read).reverse, rest)
      | _ => none

def scanMembers : Nat → List (Text × Json) → List Char → Option (Json × List Char)
  | 0, _, _ => none
  | fuel + 1, read, cs =>
    match skipBlanks cs with
    | '"' :: rest =>
      match scanString [] rest with
      | none => none
      | some (key, rest) =>
        match skipBlanks rest with
        | ':' :: rest =>
          match scanValue fuel rest with
          | none => none
          | some (value, rest) =>
            match skipBlanks rest with
            | ',' :: rest => scanMembers fuel ((key, value) :: read) rest
            | '}' :: rest => some (object ((key, value) :: read).reverse, rest)
            | _ => none
        | _ => none
    | _ => none

end

/-- The document that a text is, blanks around it aside. -/
def read? (text : String) : Option Json :=
  let cs := text.toList
  match scanValue (2 * cs.length + 2) cs with
  | some (json, rest) => if (skipBlanks rest).isEmpty then some json else none
  | none => none

end Json
end NesConsole
