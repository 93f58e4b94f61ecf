import NesConsole.Json.Reader
import NesConsole.Json.Record
import NesConsole.Snapshot.Basic
/-!
# Snapshots from JSON

The readers of the records a snapshot is made of, and of its text.  Reading checks form only: types, ranges of fixed
width and the lengths of fixed lists.  Whether a snapshot makes sense for a console is checked when it is loaded.
-/
namespace NesConsole

open Json

/-- Bank numbers are 64 bits wide in a document. -/
def bankNumber? : Json → Option Nat := natBelow? UInt64.size

def Mirroring.ofJson? (json : Json) : Option Mirroring :=
  json.variant?.bind Mirroring.ofName?

namespace ChannelState

def ofFields? (name : String) (json : Json) : Option ChannelState :=
  if name = ChannelKind.pulse.name then do
    match ← json.record? ["regs", "stopped", "length", "envelope_divider", "envelope_decay", "envelope_restart",
      "sweep_counter"] 0 with
    | [regs, stopped, length, divider, decay, restarting, counter] =>
      return .pulse (← regs.bind (vector? 4 uint8?)) (← stopped.bind bool?) (← length.bind uint8?)
        (← divider.bind int16?) (← decay.bind uint8?) (← restarting.bind bool?) (← counter.bind int16?)
    | _ => none
  else if name = ChannelKind.triangle.name then do
    match ← json.record? ["regs", "stopped", "length"] 0 with
    | [regs, stopped, length] =>
      return .triangle (← regs.bind (vector? 4 uint8?)) (← stopped.bind bool?) (← length.bind uint8?)
    | _ => none
  else if name = ChannelKind.noise.name then do
    match ← json.record? ["regs", "stopped", "length"] 0 with
    | [regs, stopped, length] =>
      return .noise (← regs.bind (vector? 4 uint8?)) (← stopped.bind bool?) (← length.bind uint8?)
    | _ => none
  else if name = ChannelKind.dmc.name then do
    match ← json.record? ["regs", "stopped", "regs_length", "dma_length"] 0 with
    | [regs, stopped, sampleLength, dmaLength] =>
      return .dmc (← regs.bind (vector? 4 uint8?)) (← stopped.bind bool?) (← sampleLength.bind uint16?)
        (← dmaLength.bind uint16?)
    | _ => none
  else
    none

def ofJson? (json : Json) : Option ChannelState := do
  let (name, fields) ← json.tagged? "kind"
  ofFields? name fields

end ChannelState

def Registers.ofJson? (json : Json) : Option Registers := do
  match ← json.record? ["a", "x", "y", "s", "p", "pc"] 0 with
  | [a, x, y, s, p, pc] =>
    return {
      a := ← a.bind uint8?, x := ← x.bind uint8?, y := ← y.bind uint8?, s := ← s.bind uint8?
      p := .ofByte (← p.bind uint8?), pc := ← pc.bind uint16? }
  | _ => none

def ApuState.ofJson? (json : Json) : Option ApuState := do
  match ← json.record? ["regs", "frame_interrupt", "dmc_interrupt", "channels"] 0 with
  | [regs, frameInterrupt, dmcInterrupt, channels] =>
    return {
      regs := ← regs.bind bytes?, frameInterrupt := ← frameInterrupt.bind bool?
      dmcInterrupt := ← dmcInterrupt.bind bool?, channels := ← channels.bind (list? ChannelState.ofJson?) }
  | _ => none

def BankState.ofJson? (json : Json) : Option BankState := do
  match ← json.record? ["prg_banks", "chr_banks", "mirroring"] 0 with
  | [prg, chr, mirroring] =>
    return {
      prg := ← prg.bind (vector? 4 bankNumber?), chr := ← chr.bind (vector? 8 bankNumber?)
      mirroring := ← mirroring.bind Mirroring.ofJson? }
  | _ => none

def CartridgeState.ofJson? (json : Json) : Option CartridgeState := do
  match ← json.record? ["mapper_no", "banks", "prg_ram", "chr_ram", "mapper_registers"] 0 with
  | [boardNumber, banks, prgRam, chrRam, boardRegisters] =>
    return {
      boardNumber := ← boardNumber.bind uint16?, banks := ← banks.bind BankState.ofJson?
      prgRam := ← prgRam.bind bytes?, chrRam := ← optional? bytes? chrRam
      boardRegisters := ← boardRegisters.bind bytes? }
  | _ => none

namespace Snapshot

def ofJson? (json : Json) : Option Snapshot := do
  match ← json.record? ["version", "cpu", "apu", "ram", "cartridge", "irq_pending"] 1 with
  | [version, cpu, apu, ram, cartridge, irqPending] =>
    return {
      version := ← version.bind uint32?, cpu := ← cpu.bind Registers.ofJson?, apu := ← apu.bind ApuState.ofJson?
      ram := ← ram.bind bytes?, cartridge := ← optional? CartridgeState.ofJson? cartridge
      irqPending := ← defaulted? false bool? irqPending }
  | _ => none

/-- Reads a whole document first and looks at its version then. -/
def ofDocument (json : Option Json) : Except SnapshotError Snapshot :=
  match json.bind ofJson? with
  | none => .error .malformed
  | some s => if s.version = snapshotVersion then .ok s else .error (.unsupportedVersion s.version)

def ofText (text : String) : Except SnapshotError Snapshot :=
  ofDocument (Json.read? text)

end Snapshot
end NesConsole
