import NesConsole.Cartridge.Banks
/-!
# MMC3 (board 4)

Eight bank registers addressed through a select register, a mirroring bit, and a scanline counter that asks for an
interrupt when it reaches zero.
-/
namespace NesConsole

structure Mmc3 where
  select : UInt8 := 0
  banks : Vector UInt8 8 := #v[0, 2, 4, 5, 6, 7, 0, 1]
  mirroring : UInt8 := 0
  ramProtect : UInt8 := 0
  latch : UInt8 := 0
  counter : UInt8 := 0
  reload : Bool := false
  enabled : Bool := false
  deriving DecidableEq

namespace Mmc3

def number : UInt16 := 4

/-- Bit 6 of the select register exchanges `$8000` and `$C000`. -/
def layoutPrg (m : Mmc3) (table : Banks) : Banks :=
  let secondLast := table.prgCount - 2
  let last := table.prgCount - 1
  let table :=
    if m.select &&& 0x40 == 0 then
      (table.selectPrg8 0 m.banks[6].toNat).selectPrg8 2 secondLast
    else
      (table.selectPrg8 0 secondLast).selectPrg8 2 m.banks[6].toNat
  (table.selectPrg8 1 m.banks[7].toNat).selectPrg8 3 last

/-- Bit 7 of the select register exchanges the two wide and the four narrow pattern windows. -/
def layoutChr (m : Mmc3) (table : Banks) : Banks :=
  let (wide, narrow) := if m.select &&& 0x80 == 0 then (0, 4) else (2, 0)
  let table := (table.selectChr2 wide (m.banks[0] >>> 1).toNat).selectChr2 (wide + 1) (m.banks[1] >>> 1).toNat
  let table := (table.selectChr1 narrow m.banks[2].toNat).selectChr1 (narrow + 1) m.banks[3].toNat
  (table.selectChr1 (narrow + 2) m.banks[4].toNat).selectChr1 (narrow + 3) m.banks[5].toNat

def layout (m : Mmc3) (table : Banks) : Banks :=
  m.layoutChr (m.layoutPrg table)

/-- The nametables a mirroring value asks for; a board wired for four screens ignores it. -/
def applyMirroring (value : UInt8) (table : Banks) : Banks :=
  if table.mirroring = .fourScreen then table
  else table.setMirroring (if value == 0 then .vertical else .horizontal)

/-- Bits 13 to 15 and bit 0 of the address pick the register. -/
def write (m : Mmc3) (address : UInt16) (value : UInt8) (table : Banks) : Mmc3 × Banks :=
  match address &&& 0xE001 with
  | 0x8000 =>
    let m := { m with select := value }
    (m, m.layout table)
  | 0x8001 =>
    have : m.select.toNat % 8 < 8 := Nat.mod_lt _ (by decide)
    let m := { m with banks := m.banks.set (m.select.toNat % 8) value }
    (m, m.layout table)
  | 0xA000 => ({ m with mirroring := value &&& 1 }, applyMirroring (value &&& 1) table)
  | 0xA001 => ({ m with ramProtect := value }, table)
  | 0xC000 => ({ m with latch := value }, table)
  | 0xC001 => ({ m with counter := 0, reload := true }, table)
  | 0xE000 => ({ m with enabled := false }, table)
  | _ => ({ m with enabled := true }, table)

/-- The scanlines that clock the counter: the visible ones and the one before them. -/
def clockedBy (scanline : UInt16) : Bool :=
  scanline < 240 || scanline == 261

/-- One scanline.  Tells whether an interrupt is asked for. -/
def hblank (m : Mmc3) (scanline : UInt16) : Bool × Mmc3 :=
  if clockedBy scanline then
    let m :=
      if m.counter = 0 ∨ m.reload then { m with counter := m.latch, reload := false }
      else { m with counter := m.counter - 1 }
    (m.counter == 0 && m.enabled, m)
  else
    (false, m)

def save (m : Mmc3) : Array UInt8 :=
  #[m.select] ++ m.banks.toArray ++
    #[m.mirroring, m.ramProtect, m.latch, m.counter, m.reload.toUInt8, m.enabled.toUInt8]

/-- Flags are saved as bytes, of which any but zero means set. -/
def load (regs : Array UInt8) : Except Corruption Mmc3 :=
  match regs.toList with
  | [select, r0, r1, r2, r3, r4, r5, r6, r7, mirroring, ramProtect, latch, counter, reload, enabled] =>
    .ok
      { select, banks := #v[r0, r1, r2, r3, r4, r5, r6, r7], mirroring, ramProtect, latch, counter
        reload := reload != 0, enabled := enabled != 0 }
  | _ => .error (.boardRegisters number 15 regs.size)

end Mmc3
end NesConsole
