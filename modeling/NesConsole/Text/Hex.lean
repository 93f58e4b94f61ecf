/-!
# Upper-case hexadecimal text

Bytes are written with two digits and words with four, as they stand in an assembly listing.  `hexNumber` writes a
number of any size with no leading zeros.
-/
namespace NesConsole

/-- The digit for `n < 16`. -/
def hexDigit (n : Nat) : Char :=
  if n < 10 then Char.ofNat (48 + n) else Char.ofNat (55 + n)

def hexByteDigits (b : UInt8) : List Char :=
  [hexDigit (b.toNat / 16), hexDigit (b.toNat % 16)]

def hexWordDigits (w : UInt16) : List Char :=
  hexByteDigits (w >>> 8).toUInt8 ++ hexByteDigits w.toUInt8

def hexByte (b : UInt8) : String :=
  String.ofList (hexByteDigits b)

def hexWord (w : UInt16) : String :=
  String.ofList (hexWordDigits w)

def hexNumberDigits (n : Nat) : List Char :=
  if n < 16 then [hexDigit n] else hexNumberDigits (n / 16) ++ [hexDigit (n % 16)]

def hexNumber (n : Nat) : String :=
  String.ofList (hexNumberDigits n)

end NesConsole
