import NesConsole.Cartridge.Mmc1
import NesConsole.Cartridge.Mmc3
/-!
# Boards

A board decodes register writes into selections on the bank table.  It never touches the images themselves.  Six of the
eight boards have no memory of their own: what they last selected stands in the bank table.
-/
namespace NesConsole

inductive Board where
  /-- Fixed program and pattern banks. -/
  | nrom
  | mmc1 (registers : Mmc1)
  /-- A switched 16 KiB program bank below the fixed last one. -/
  | uxRom
  /-- A switched 8 KiB pattern bank. -/
  | cnRom
  | mmc3 (registers : Mmc3)
  /-- A switched 32 KiB program bank, and a choice of single-screen nametable. -/
  | axRom
  /-- A switched 32 KiB program bank and a switched 8 KiB pattern bank. -/
  | gxRom
  /-- A switched 8 KiB pattern bank whose two bits are written in swapped order, at `$6000` to `$7FFF`. -/
  | board87
  deriving DecidableEq

namespace Board

def number : Board → UInt16
  | nrom => 0
  | mmc1 _ => Mmc1.number
  | uxRom => 2
  | cnRom => 3
  | mmc3 _ => Mmc3.number
  | axRom => 7
  | gxRom => 66
  | board87 => 87

/-- The board of a number, with its registers as they are at power-on. -/
def ofNumber? : UInt16 → Option Board
  | 0 => some nrom
  | 1 => some (mmc1 {})
  | 2 => some uxRom
  | 3 => some cnRom
  | 4 => some (mmc3 {})
  | 7 => some axRom
  | 66 => some gxRom
  | 87 => some board87
  | _ => none

/-- The address ranges, ends included, whose writes go to the board instead of memory. -/
def writeRanges : Board → List (UInt16 × UInt16)
  | nrom => []
  | board87 => [(0x6000, 0x7FFF)]
  | mmc1 _ | uxRom | cnRom | mmc3 _ | axRom | gxRom => [(0x8000, 0xFFFF)]

def claims (board : Board) (address : UInt16) : Bool :=
  board.writeRanges.any fun (first, last) => first ≤ address && address ≤ last

/-- Both spaces show the start of their images. -/
def mapStart (banks : Banks) : Banks :=
  (banks.selectPrg32 0).selectChr8 0

def reset (board : Board) (banks : Banks) : Board × Banks :=
  match board with
  | nrom | cnRom | gxRom | board87 => (board, mapStart banks)
  | axRom => (board, (mapStart banks).setMirroring .single0)
  | uxRom => (board, ((banks.selectPrg16 0 0).selectPrg16 1 (banks.prgCount16 - 1)).selectChr8 0)
  | mmc1 _ => (mmc1 {}, ({} : Mmc1).layout banks)
  | mmc3 _ => (mmc3 {}, ({} : Mmc3).layout banks)

def swapLowBits (value : UInt8) : UInt8 :=
  (value &&& 0x02) >>> 1 ||| (value &&& 0x01) <<< 1

def write (board : Board) (address : UInt16) (value : UInt8) (banks : Banks) : Board × Banks :=
  match board with
  | nrom => (board, banks)
  | mmc1 m => let (m, banks) := m.write address value banks; (mmc1 m, banks)
  | uxRom => (board, banks.selectPrg16 0 value.toNat)
  | cnRom => (board, banks.selectChr8 value.toNat)
  | mmc3 m => let (m, banks) := m.write address value banks; (mmc3 m, banks)
  | axRom =>
    let mirroring := if value &&& 0x10 == 0 then .single0 else .single1
    (board, (banks.selectPrg32 (value &&& 0x07).toNat).setMirroring mirroring)
  | gxRom => (board, (banks.selectPrg32 (value >>> 4 &&& 0x03).toNat).selectChr8 (value &&& 0x03).toNat)
  | board87 => (board, banks.selectChr8 (swapLowBits value).toNat)

/-- One scanline.  Tells whether the board asks for an interrupt; only MMC3 ever does. -/
def hblank (board : Board) (scanline : UInt16) : Bool × Board :=
  match board with
  | mmc3 m => let (fired, m) := m.hblank scanline; (fired, mmc3 m)
  | nrom | mmc1 _ | uxRom | cnRom | axRom | gxRom | board87 => (false, board)

def save : Board → Array UInt8
  | mmc1 m => m.save
  | mmc3 m => m.save
  | nrom | uxRom | cnRom | axRom | gxRom | board87 => #[]

/-- Takes saved registers over; a board without registers accepts only none. -/
def load (board : Board) (regs : Array UInt8) : Except Corruption Board :=
  match board with
  | mmc1 _ => mmc1 <$> Mmc1.load regs
  | mmc3 _ => mmc3 <$> Mmc3.load regs
  | nrom | uxRom | cnRom | axRom | gxRom | board87 =>
    if regs.isEmpty then .ok board else .error (.boardRegisters board.number 0 regs.size)

end Board
end NesConsole
