import NesConsole.Cartridge.Banks
/-!
# MMC1 (board 1)

Four registers behind a serial input.  Writes shift in one bit each, least significant first, and the fifth commits the
value to the register its address picks.  A write with bit 7 set abandons the bits shifted in so far.
-/
namespace NesConsole

structure Mmc1 where
  shift : UInt8 := 0x10
  shiftCount : UInt8 := 0
  control : UInt8 := 0x0C
  chr0 : UInt8 := 0
  chr1 : UInt8 := 0
  prg : UInt8 := 0
  deriving DecidableEq

namespace Mmc1

def number : UInt16 := 1

def mirroring (m : Mmc1) : Mirroring :=
  match m.control &&& 0x03 with
  | 0 => .single0
  | 1 => .single1
  | 2 => .vertical
  | _ => .horizontal

def layoutPrg (m : Mmc1) (banks : Banks) : Banks :=
  let bank := (m.prg &&& 0x0F).toNat
  match m.control >>> 2 &&& 0x03 with
  | 0 | 1 => banks.selectPrg32 (bank >>> 1)
  | 2 => (banks.selectPrg16 0 0).selectPrg16 1 bank
  | _ => (banks.selectPrg16 0 bank).selectPrg16 1 (banks.prgCount16 - 1)

def layoutChr (m : Mmc1) (banks : Banks) : Banks :=
  if m.control &&& 0x10 != 0 then
    (banks.selectChr4 0 m.chr0.toNat).selectChr4 1 m.chr1.toNat
  else
    banks.selectChr8 ((m.chr0 &&& 0x1E) >>> 1).toNat

/-- Maps banks and nametables as the four registers say. -/
def layout (m : Mmc1) (banks : Banks) : Banks :=
  m.layoutChr (m.layoutPrg (banks.setMirroring m.mirroring))

/-- Stores a committed value in the register that bits 13 and 14 of the address pick. -/
def commit (m : Mmc1) (address : UInt16) (value : UInt8) : Mmc1 :=
  match address >>> 13 with
  | 4 => { m with control := value }
  | 5 => { m with chr0 := value }
  | 6 => { m with chr1 := value }
  | _ => { m with prg := value &&& 0x0F }

def clearShift (m : Mmc1) : Mmc1 := { m with shift := 0x10, shiftCount := 0 }

def write (m : Mmc1) (address : UInt16) (value : UInt8) (banks : Banks) : Mmc1 × Banks :=
  if value &&& 0x80 != 0 then
    let m := { m with control := m.control ||| 0x0C }.clearShift
    (m, m.layout banks)
  else
    let m := { m with shift := m.shift >>> 1 ||| (value &&& 1) <<< 4, shiftCount := m.shiftCount + 1 }
    if m.shiftCount < 5 then
      (m, banks)
    else
      let m := (m.commit address (m.shift &&& 0x1F)).clearShift
      (m, m.layout banks)

def save (m : Mmc1) : Array UInt8 :=
  #[m.shift, m.shiftCount, m.control, m.chr0, m.chr1, m.prg]

/-- A shift register with five bits or more in it cannot have been saved. -/
def load (regs : Array UInt8) : Except Corruption Mmc1 :=
  match regs.toList with
  | [shift, shiftCount, control, chr0, chr1, prg] =>
    if 5 ≤ shiftCount then
      .error (.shiftCount shiftCount)
    else
      .ok { shift, shiftCount, control, chr0, chr1, prg }
  | _ => .error (.boardRegisters number 6 regs.size)

end Mmc1
end NesConsole
