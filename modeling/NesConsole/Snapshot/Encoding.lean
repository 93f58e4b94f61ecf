import NesConsole.Json.Printer
import NesConsole.Snapshot.Basic
/-!
# Snapshots as JSON

Every record is written with all its fields in a fixed order.  A snapshot's text is the pretty layout.
-/
namespace NesConsole

def bytesToJson (bytes : Array UInt8) : Json := .array (bytes.toList.map fun b => .ofNat b.toNat)

namespace ChannelState

def fields : ChannelState → List (String × Json)
  | pulse regs stopped length divider decay restarting counter =>
    [("regs", bytesToJson regs.toArray), ("stopped", .bool stopped), ("length", .ofNat length.toNat),
      ("envelope_divider", .integer divider.toInt), ("envelope_decay", .ofNat decay.toNat),
      ("envelope_restart", .bool restarting), ("sweep_counter", .integer counter.toInt)]
  | triangle regs stopped length | noise regs stopped length =>
    [("regs", bytesToJson regs.toArray), ("stopped", .bool stopped), ("length", .ofNat length.toNat)]
  | dmc regs stopped sampleLength dmaLength =>
    [("regs", bytesToJson regs.toArray), ("stopped", .bool stopped), ("regs_length", .ofNat sampleLength.toNat),
      ("dma_length", .ofNat dmaLength.toNat)]

/-- The kind stands first, as a tag. -/
def toJson (state : ChannelState) : Json :=
  .ofFields (("kind", .ofString state.kind.name) :: state.fields)

end ChannelState

def Registers.toJson (r : Registers) : Json :=
  .ofFields
    [("a", .ofNat r.a.toNat), ("x", .ofNat r.x.toNat), ("y", .ofNat r.y.toNat), ("s", .ofNat r.s.toNat),
      ("p", .ofNat r.p.toByte.toNat), ("pc", .ofNat r.pc.toNat)]

def ApuState.toJson (state : ApuState) : Json :=
  .ofFields
    [("regs", bytesToJson state.regs), ("frame_interrupt", .bool state.frameInterrupt),
      ("dmc_interrupt", .bool state.dmcInterrupt), ("channels", .array (state.channels.map ChannelState.toJson))]

def BankState.toJson (state : BankState) : Json :=
  .ofFields
    [("prg_banks", .array (state.prg.toList.map .ofNat)), ("chr_banks", .array (state.chr.toList.map .ofNat)),
      ("mirroring", .ofString state.mirroring.name)]

def CartridgeState.toJson (state : CartridgeState) : Json :=
  .ofFields
    [("mapper_no", .ofNat state.boardNumber.toNat), ("banks", state.banks.toJson),
      ("prg_ram", bytesToJson state.prgRam), ("chr_ram", state.chrRam.elim .null bytesToJson),
      ("mapper_registers", bytesToJson state.boardRegisters)]

namespace Snapshot

def toJson (s : Snapshot) : Json :=
  .ofFields
    [("version", .ofNat s.version.toNat), ("cpu", s.cpu.toJson), ("apu", s.apu.toJson), ("ram", bytesToJson s.ram),
      ("cartridge", s.cartridge.elim .null CartridgeState.toJson), ("irq_pending", .bool s.irqPending)]

def toText (s : Snapshot) : String := s.toJson.pretty

end Snapshot
end NesConsole
