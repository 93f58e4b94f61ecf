import NesConsole.Console.Basic
/-!
# Snapshots

All of a console that a program can observe, as plain data.  `Console.load` either refuses a snapshot with its cause or
gives a console that holds it; there is no half-loaded console.  The joypads, the video unit, the pause flag and the
debugger are the host's and not part of a snapshot.
-/
namespace NesConsole

/-- The version of the snapshots written and read here. -/
def snapshotVersion : UInt32 := 1

structure Snapshot where
  version : UInt32
  cpu : Registers
  apu : ApuState
  ram : Array UInt8
  cartridge : Option CartridgeState
  /-- An interrupt asked for and not yet taken. -/
  irqPending : Bool
  deriving DecidableEq

/-- The reserved bit of P always reads as 1. -/
def Registers.check (r : Registers) : Except Corruption Unit :=
  if r.p.reserved then .ok () else .error (.reservedBitClear r.p.toByte)

/-- Takes saved registers over. -/
def Processor.load (cpu : Processor) (registers : Registers) : Except Corruption Processor := do
  registers.check
  return { cpu with registers, operation := none }

namespace Console

variable {π : Type}

def save (console : Console π) : Snapshot where
  version := snapshotVersion
  cpu := console.cpu.registers
  apu := console.bus.apu.save
  ram := console.bus.ram.toArray
  cartridge := console.bus.cartridge.map Cartridge.save
  irqPending := console.irq

/-- A snapshot of a cartridge fits only a console with one, and the other way round. -/
def loadCartridge (inserted : Option Cartridge) (saved : Option CartridgeState) :
    Except Corruption (Option Cartridge) :=
  match inserted, saved with
  | some cartridge, some state => some <$> cartridge.load state
  | none, none => .ok none
  | _, _ => .error .cartridgePresence

/-- Takes a snapshot's contents over.  Of several faults the registers' is reported first, then work RAM's, the
cartridge's and the sound unit's. -/
def loadContents (console : Console π) (s : Snapshot) : Except Corruption (Console π) := do
  let cpu ← console.cpu.load s.cpu
  if h : s.ram.size = workRamSize then
    let cartridge ← loadCartridge console.bus.cartridge s.cartridge
    let apu ← console.bus.apu.load s.apu
    return { console with cpu, bus := { console.bus with ram := ⟨s.ram, h⟩, apu, cartridge }, irq := s.irqPending }
  else
    .error (.workRamSize s.ram.size)

def load (console : Console π) (s : Snapshot) : Except SnapshotError (Console π) :=
  if s.version = snapshotVersion then
    (console.loadContents s).mapError .corrupt
  else
    .error (.unsupportedVersion s.version)

end Console
end NesConsole
