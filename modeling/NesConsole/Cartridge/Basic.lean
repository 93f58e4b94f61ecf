import NesConsole.Cartridge.Board
/-!
# Cartridges

A program image, a pattern image or pattern RAM, 8 KiB of program RAM, and a board that maps the images through the bank
table.  Offsets are reduced modulo the image, so every fetch is inside it.
-/
namespace NesConsole

inductive CartridgeError where
  | unsupportedBoard (number : UInt16)
  | programSize (size : Nat)
  | patternSize (size : Nat)
  deriving DecidableEq

def CartridgeError.message : CartridgeError → String
  | unsupportedBoard number => s!"Unsupported Mapper: {number}"
  | programSize size => "PRG ROM size 0x" ++ hexNumber size ++ " is not a non-zero multiple of 8 KiB"
  | patternSize size => "CHR size 0x" ++ hexNumber size ++ " is not a multiple of 1 KiB"

structure CartridgeState where
  boardNumber : UInt16
  banks : BankState
  prgRam : Array UInt8
  /-- Only present if the cartridge has pattern RAM. -/
  chrRam : Option (Array UInt8)
  boardRegisters : Array UInt8
  deriving DecidableEq

/-- Size of the program RAM at `$6000` to `$7FFF`. -/
abbrev prgRamSize : Nat := 0x2000

/-- Size of the pattern RAM of a cartridge without a pattern image. -/
abbrev chrRamSize : Nat := 0x2000

structure Cartridge where
  prg : Array UInt8
  chr : Array UInt8
  chrIsRam : Bool
  prgRam : Vector UInt8 prgRamSize := .replicate prgRamSize 0
  banks : Banks
  board : Board
  prg_pos : 0 < prg.size
  chr_pos : 0 < chr.size

namespace Cartridge

def reset (c : Cartridge) : Cartridge :=
  let (board, banks) := c.board.reset c.banks
  { c with board, banks }

/-- A cartridge with these images; an empty pattern image stands for pattern RAM.  Sizes are checked before the board
number, and the program image first. -/
def ofImages (prg chr : Array UInt8) (number : UInt16) (mirroring : Mirroring) : Except CartridgeError Cartridge :=
  if hp : prg.size = 0 ∨ prg.size % prgBankSize ≠ 0 then
    .error (.programSize prg.size)
  else if chr.size % chrBankSize ≠ 0 then
    .error (.patternSize chr.size)
  else
    match Board.ofNumber? number with
    | none => .error (.unsupportedBoard number)
    | some board =>
      have prg_pos : 0 < prg.size := by omega
      if hc : chr.size = 0 then
        let banks := Banks.initial prg.size chrRamSize mirroring
        let cartridge : Cartridge :=
          { prg, chr := .replicate chrRamSize 0, chrIsRam := true, banks, board, prg_pos, chr_pos := by simp }
        .ok cartridge.reset
      else
        let banks := Banks.initial prg.size chr.size mirroring
        let cartridge : Cartridge := { prg, chr, chrIsRam := false, banks, board, prg_pos, chr_pos := by omega }
        .ok cartridge.reset

def number (c : Cartridge) : UInt16 := c.board.number

def mirroring (c : Cartridge) : Mirroring := c.banks.mirroring

def claims (c : Cartridge) (address : UInt16) : Bool := c.board.claims address

/-! ## Accesses from the processor's side -/

/-- The byte of program RAM at an address of `$6000` to `$7FFF`. -/
def prgRamIndex (address : UInt16) : Fin prgRamSize :=
  ⟨address.toNat % prgRamSize, Nat.mod_lt _ (by decide)⟩

/-- Nothing answers below `$6000`. -/
def read (c : Cartridge) (address : UInt16) : UInt8 :=
  if address < 0x6000 then
    0
  else if address < 0x8000 then
    c.prgRam[prgRamIndex address]
  else
    have : c.banks.prgOffset address % c.prg.size < c.prg.size := Nat.mod_lt _ c.prg_pos
    c.prg[c.banks.prgOffset address % c.prg.size]

def writeBoard (c : Cartridge) (address : UInt16) (value : UInt8) : Cartridge :=
  let (board, banks) := c.board.write address value c.banks
  { c with board, banks }

/-- The board comes first; of what it leaves, only program RAM can be written. -/
def write (c : Cartridge) (address : UInt16) (value : UInt8) : Cartridge :=
  if c.claims address then
    c.writeBoard address value
  else if 0x6000 ≤ address ∧ address < 0x8000 then
    { c with prgRam := c.prgRam.set (prgRamIndex address) value }
  else
    c

/-! ## Accesses from the video side -/

def readPattern (c : Cartridge) (address : UInt16) : UInt8 :=
  have : c.banks.chrOffset address % c.chr.size < c.chr.size := Nat.mod_lt _ c.chr_pos
  c.chr[c.banks.chrOffset address % c.chr.size]

/-- A pattern image cannot be written. -/
def writePattern (c : Cartridge) (address : UInt16) (value : UInt8) : Cartridge :=
  if c.chrIsRam then
    have h : c.banks.chrOffset address % c.chr.size < c.chr.size := Nat.mod_lt _ c.chr_pos
    { c with
      chr := c.chr.set (c.banks.chrOffset address % c.chr.size) value h
      chr_pos := by simpa using c.chr_pos }
  else
    c

/-- One scanline.  Tells whether the board asks for an interrupt. -/
def hblank (c : Cartridge) (scanline : UInt16) : Bool × Cartridge :=
  let (fired, board) := c.board.hblank scanline
  (fired, { c with board })

/-! ## Snapshots -/

def save (c : Cartridge) : CartridgeState where
  boardNumber := c.number
  banks := c.banks.save
  prgRam := c.prgRam.toArray
  chrRam := if c.chrIsRam then some c.chr else none
  boardRegisters := c.board.save

/-- Puts a saved pattern RAM back, which must be there exactly if the cartridge has one, and of its size. -/
def loadChrRam (c : Cartridge) (saved : Option (Array UInt8)) : Except Corruption Cartridge :=
  match saved, c.chrIsRam with
  | some ram, true =>
    if h : ram.size = c.chr.size then .ok { c with chr := ram, chr_pos := h ▸ c.chr_pos } else .error .chrRamMismatch
  | none, false => .ok c
  | _, _ => .error .chrRamMismatch

/-- Takes a snapshot of a cartridge with the same board and images over. -/
def load (c : Cartridge) (state : CartridgeState) : Except Corruption Cartridge :=
  if state.boardNumber ≠ c.number then
    .error (.boardNumber state.boardNumber c.number)
  else if h : state.prgRam.size = prgRamSize then do
    let c ← { c with prgRam := ⟨state.prgRam, h⟩ }.loadChrRam state.chrRam
    let banks ← c.banks.load state.banks
    let board ← c.board.load state.boardRegisters
    return { c with banks, board }
  else
    .error (.prgRamSize state.prgRam.size)

end Cartridge
end NesConsole
