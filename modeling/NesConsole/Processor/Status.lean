/-!
# The status register

The eight flags of `P` as a record of booleans, and their packing into a byte (`NV1B DIZC`, carry in bit 0).  The two
forms carry the same information: `Status.ofByte_toByte` and `Status.toByte_ofByte`.
-/
namespace NesConsole

structure Status where
  carry : Bool := false
  zero : Bool := false
  interruptDisable : Bool := false
  /-- Stored, but arithmetic stays binary. -/
  decimal : Bool := false
  /-- Meaningful only in pushed copies of the register. -/
  breakMark : Bool := false
  /-- Always pushed as 1. -/
  reserved : Bool := false
  overflow : Bool := false
  negative : Bool := false
  deriving DecidableEq

namespace Status

def toByte (p : Status) : UInt8 :=
  p.carry.toUInt8 ||| p.zero.toUInt8 <<< 1 ||| p.interruptDisable.toUInt8 <<< 2 ||| p.decimal.toUInt8 <<< 3 |||
    p.breakMark.toUInt8 <<< 4 ||| p.reserved.toUInt8 <<< 5 ||| p.overflow.toUInt8 <<< 6 ||| p.negative.toUInt8 <<< 7

def ofByte (b : UInt8) : Status where
  carry := b &&& 0x01 != 0
  zero := b &&& 0x02 != 0
  interruptDisable := b &&& 0x04 != 0
  decimal := b &&& 0x08 != 0
  breakMark := b &&& 0x10 != 0
  reserved := b &&& 0x20 != 0
  overflow := b &&& 0x40 != 0
  negative := b &&& 0x80 != 0

@[simp] theorem ofByte_toByte (p : Status) : ofByte p.toByte = p := by
  rcases p with ⟨c, z, i, d, b, r, v, n⟩
  cases c <;> cases z <;> cases i <;> cases d <;> cases b <;> cases r <;> cases v <;> cases n <;> rfl

theorem toByte_ofByte_fin : ∀ n : Fin 256, (ofByte (UInt8.ofFin n)).toByte = UInt8.ofFin n := by decide +kernel

@[simp] theorem toByte_ofByte (b : UInt8) : (ofByte b).toByte = b :=
  toByte_ofByte_fin b.toFin

/-- The flags a processor starts with before its first reset. -/
def powerOn : Status := { reserved := true }

/-- The flags after a reset. -/
def afterReset : Status := { interruptDisable := true, breakMark := true, reserved := true }

/-- N and Z follow the result byte of an operation. -/
def withResult (p : Status) (value : UInt8) : Status :=
  { p with zero := value == 0, negative := value &&& 0x80 != 0 }

/-- N, Z and C after a comparison or a shift. -/
def withCarryResult (p : Status) (value : UInt8) (carry : Bool) : Status :=
  { p.withResult value with carry }

/-- The register a return or a pull restores: the reserved bit always comes back as 1. -/
def pulled (b : UInt8) : Status :=
  { ofByte b with reserved := true }

end Status
end NesConsole
