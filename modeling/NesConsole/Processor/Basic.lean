import NesConsole.Processor.Debugger
import NesConsole.Processor.Disassembly
import NesConsole.Processor.Execute
import NesConsole.Processor.History
/-!
# The processor

A processor is its registers together with what surrounds a program: the pause flag and the last fault, breakpoints and
watchpoints, and the history of executed steps.  It runs on any bus.  An instruction is carried out as one exchange, so
breakpoints, watchpoints and the history never enter into what the instruction does.
-/
namespace NesConsole

/-- Why a processor stopped on its own. -/
inductive Fault where
  | unknownOpcode (code : UInt8) (address : UInt16)
  /-- An operation that needs a memory operand was executed without one. -/
  | missingOperand (operation : Option Operation) (address : UInt16)
  deriving DecidableEq

def Fault.message : Fault → String
  | unknownOpcode code address => "Unknown opcode 0x" ++ hexByte code ++ " at $" ++ hexWord address
  | missingOperand operation address =>
    operation.elim "???" Operation.mnemonic ++ " at $" ++ hexWord address ++ " has no memory operand"

def historyCapacity : Nat := 200

structure Processor where
  registers : Registers := {}
  paused : Bool := false
  fault : Option Fault := none
  breakpoints : Breakpoints := {}
  watchpoints : Watchpoints := {}
  /-- Whether steps are written to the history. -/
  debug : Bool := false
  history : History := { capacity := historyCapacity }
  /-- Address of the instruction last begun. -/
  instructionAddress : UInt16 := 0
  /-- Operation last decoded. -/
  operation : Option Operation := none

inductive Fetched where
  | unmapped (code : UInt8)
  /-- `effect` is none if the operation lacked its operand; the registers then only move past the instruction. -/
  | executed (instruction : Instruction) (behind : Registers) (effect : Option Effect) (pageCrossed : Bool)

/-- Fetches, decodes, resolves and executes the instruction at the program counter. -/
def Registers.instruction (r : Registers) : Exchange Fetched := do
  let code ← Exchange.byte r.pc
  match Instruction.decode code with
  | none => return .unmapped code
  | some i =>
    let operand ← i.mode.resolve (r.pc + 1) r
    let behind := { r with pc := r.pc + UInt16.ofNat i.size }
    return .executed i behind (← i.operation.execute operand behind) operand.pageCrossed

def Instruction.totalCycles (i : Instruction) (extra : Nat) (pageCrossed : Bool) : Nat :=
  i.cycles + extra + (i.pagePenalty && pageCrossed).toNat

namespace Processor

variable {β : Type} [Bus β]

/-- Carries out an exchange whose accesses are watched. -/
@[specialize]
def exchange {α : Type} (cpu : Processor) (e : Exchange α) (bus : β) : α × Processor × β :=
  let (result, paused, bus) := e.watched cpu.watchpoints cpu.paused bus
  (result, { cpu with paused }, bus)

def note (cpu : Processor) (line : String) : Processor :=
  if cpu.debug then { cpu with history := cpu.history.write line } else cpu

/-- In debug mode the instruction to come is listed first, by reads that are not watched. -/
@[specialize]
def noteStep (cpu : Processor) (bus : β) : Processor × β :=
  if cpu.debug then
    let (line, bus) := (Disassembly.line cpu.registers.pc).perform bus
    (cpu.note line, bus)
  else
    (cpu, bus)

def stop (cpu : Processor) (fault : Fault) : Processor :=
  { cpu with fault := some fault, paused := true }

/-- Takes over an operation's outcome; `behind` are the registers to keep if the operand was missing. -/
def settle (cpu : Processor) (behind : Registers) : Option Effect → Processor
  | some effect => { cpu with registers := effect.registers }
  | none => { cpu with registers := behind }.stop (.missingOperand cpu.operation cpu.instructionAddress)

/-- Executes one instruction and gives the cycles it took.  An unmapped opcode takes none and pauses the processor just
behind the offending byte; an enabled breakpoint at the new program counter pauses it too. -/
@[specialize]
def step (cpu : Processor) (bus : β) : Nat × Processor × β :=
  let (cpu, bus) := cpu.noteStep bus
  let start := cpu.registers.pc
  let (fetched, cpu, bus) := cpu.exchange cpu.registers.instruction bus
  let cpu := { cpu with instructionAddress := start }
  match fetched with
  | .unmapped code =>
    let behind := { cpu.registers with pc := start + 1 }
    (0, { cpu with registers := behind }.stop (.unknownOpcode code start), bus)
  | .executed i behind effect pageCrossed =>
    let cpu := { cpu with operation := some i.operation }.settle behind effect
    let cpu := { cpu with paused := cpu.paused || cpu.breakpoints.isEnabled cpu.registers.pc }
    (i.totalCycles (effect.elim 0 Effect.extraCycles) pageCrossed, cpu, bus)

/-- Executes an operation by itself, on an operand already resolved; gives the extra cycles. -/
@[specialize]
def execute (cpu : Processor) (operation : Operation) (operand : Operand) (bus : β) : Nat × Processor × β :=
  let (effect, cpu, bus) := cpu.exchange (operation.execute operand cpu.registers) bus
  (effect.elim 0 Effect.extraCycles, cpu.settle cpu.registers effect, bus)

/-- Power-on and reset: forgets the fault and the history, but neither the pause flag nor the breakpoints. -/
@[specialize]
def reset (cpu : Processor) (bus : β) : Processor × β :=
  let (registers, cpu, bus) := cpu.exchange cpu.registers.reset bus
  ({ cpu with registers, history := cpu.history.clear, fault := none, operation := none }, bus)

/-- Enters the non-maskable interrupt; an event breakpoint pauses behind it. -/
@[specialize]
def nmi (cpu : Processor) (bus : β) : Processor × β :=
  let pc := cpu.registers.pc
  let cpu := cpu.note ("NMI occurred at pc=" ++ hexWord pc)
  let (registers, cpu, bus) := cpu.exchange (Interrupt.nmi.enter pc cpu.registers) bus
  ({ cpu with registers, paused := cpu.paused || cpu.breakpoints.isEventEnabled .nmi }, bus)

/-- Enters the maskable interrupt unless the I flag refuses it; tells whether it was accepted. -/
@[specialize]
def requestIrq (cpu : Processor) (bus : β) : Bool × Processor × β :=
  if cpu.registers.p.interruptDisable then
    (false, cpu, bus)
  else
    let pc := cpu.registers.pc
    let cpu := cpu.note ("IRQ occurred at pc=" ++ hexWord pc)
    let (registers, cpu, bus) := cpu.exchange (Interrupt.irq.enter pc cpu.registers) bus
    (true, { cpu with registers }, bus)

def recentSteps (cpu : Processor) (count : Nat) : List String :=
  cpu.history.recent count

def clearBreakpoints (cpu : Processor) : Processor :=
  { cpu with breakpoints := {}, watchpoints := {} }

end Processor
end NesConsole
