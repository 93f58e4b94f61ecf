import NesConsole.Console.Bus
import NesConsole.Processor.Basic
/-!
# The console

A processor, its bus, and the interrupt line that the sound unit and the cartridge's board share.  The line is latched:
it stays raised until the processor accepts the interrupt.  The host drives a console by steps or by cycle budgets, and
reports scanlines and vertical blanks to it.

The cycles of a step and those since the last reset are counted in words, which start over behind their range; a run adds
up what its steps give without a bound.
-/
namespace NesConsole

/-- A count of cycles in a word, read as a number. -/
instance coeUInt32Nat : Coe UInt32 Nat := ⟨UInt32.toNat⟩

instance coeUInt64Nat : Coe UInt64 Nat := ⟨UInt64.toNat⟩

structure Console (π : Type) where
  cpu : Processor := {}
  bus : ConsoleBus π
  irq : Bool := false
  /-- Cycles run since the last reset. -/
  cycles : UInt64 := 0

inductive RunState where
  /-- The budget was used up. -/
  | completed (cycles : Nat)
  /-- The processor was paused before the budget was used up. -/
  | paused (cycles : Nat)
  deriving DecidableEq

namespace Console

variable {π : Type} [VideoUnit π]

/-- A console with no cartridge, before its first reset. -/
def initial (video : π) (debug : Bool) : Console π where
  cpu := { debug }
  bus := { video }

@[specialize]
def reset (console : Console π) : Console π :=
  let (cpu, bus) := console.cpu.reset console.bus.reset
  { cpu, bus, irq := false, cycles := 0 }

@[specialize]
def insert (console : Console π) (cartridge : Cartridge) : Console π :=
  { console with bus := console.bus.insert cartridge }.reset

/-- Enters a pending interrupt if the processor accepts it, which clears the line.  Gives the cycles spent. -/
@[specialize]
def takeIrq (console : Console π) : UInt32 × Console π :=
  if console.irq then
    let { cpu, bus, irq, cycles } := console
    let (accepted, cpu, bus) := cpu.requestIrq bus
    (if accepted then Interrupt.entryCycles else 0, { cpu, bus, irq := irq && !accepted, cycles })
  else
    (0, console)

/-- Runs one instruction, after a pending interrupt.  Gives the cycles spent, with interrupt entry and the stall of a
sprite transfer.  A paused console does nothing. -/
@[specialize]
def step (console : Console π) : UInt32 × Console π :=
  if console.cpu.paused then
    (0, console)
  else
    let (entered, { cpu, bus, irq, cycles }) := console.takeIrq
    let (executed, cpu, bus) := cpu.step bus
    let (stalled, bus) := bus.takeStall
    let spent := entered + UInt32.ofNat executed + stalled
    (spent, { cpu, bus, irq, cycles := cycles + spent.toUInt64 })

/-- Steps until `budget` cycles are spent or the processor pauses.  A step that spends nothing pauses, but for a first one
whose stall makes its count start over, so `budget + 2` steps are always enough. -/
@[specialize]
def runFrom (budget : Nat) : (steps spent : Nat) → Console π → RunState × Console π
  | 0, spent, console => (.completed spent, console)
  | steps + 1, spent, console =>
    if budget ≤ spent then
      (.completed spent, console)
    else if console.cpu.paused then
      (.paused spent, console)
    else
      let (cycles, console) := console.step
      runFrom budget steps (spent + cycles) console

@[specialize]
def runCycles (console : Console π) (budget : Nat) : RunState × Console π :=
  runFrom budget (budget + 2) 0 console

/-- Vertical blank, reported by the video side. -/
@[specialize]
def nmi (console : Console π) : Console π :=
  let { cpu, bus, irq, cycles } := console
  let (cpu, bus) := cpu.nmi bus
  { cpu, bus, irq, cycles := cycles + Interrupt.entryCycles.toUInt64 }

/-- Carries out an exchange that the host makes on the bus, past the watchpoints. -/
@[specialize]
def perform {α : Type} (console : Console π) (e : Exchange α) : α × Console π :=
  let { cpu, bus, irq, cycles } := console
  let (result, bus) := e.perform bus
  (result, { cpu, bus, irq, cycles })

/-- A read as the processor sees it, side effects of devices included. -/
def peek (console : Console π) (address : UInt16) : UInt8 × Console π :=
  console.perform (Exchange.byte address)

omit [VideoUnit π]

/-- One scanline on the devices.  The sound unit is wired to the interrupt line; whether the board asks for an interrupt
is told to the caller. -/
def tick (console : Console π) (scanline : UInt16) : Bool × Console π :=
  let { cpu, bus, irq, cycles } := console
  let (audio, board, bus) := bus.hblank scanline
  (board, { cpu, bus, irq := irq || audio.any, cycles })

/-- One scanline, reported by the host. -/
def hblank (console : Console π) (scanline : UInt16) : Console π :=
  let (board, console) := console.tick scanline
  { console with irq := console.irq || board }

def press (console : Console π) (pad : Nat) (held : Buttons) : Console π :=
  { console with bus := { console.bus with apu := console.bus.apu.press pad held } }

def pause (console : Console π) (paused : Bool) : Console π :=
  { console with cpu := { console.cpu with paused } }

def attachVideo {π' : Type} (console : Console π) (video : π') : Console π' where
  cpu := console.cpu
  bus := { console.bus with video }
  irq := console.irq
  cycles := console.cycles

end Console
end NesConsole
