import NesConsole.Processor.Registers
/-!
# Interrupts

Entering an interrupt pushes the return address and a copy of P, then continues at the handler its vector names, with
further requests disabled.  The copy of P tells a software interrupt from a requested one by its B bit.
-/
namespace NesConsole

inductive Interrupt where
  | nmi
  /-- The `BRK` instruction. -/
  | brk
  | irq
  deriving DecidableEq

namespace Interrupt

def all : List Interrupt := [nmi, brk, irq]

def name : Interrupt → String
  | nmi => "Nmi"
  | brk => "Brk"
  | irq => "Irq"

/-- Where the handler's address is stored; `BRK` shares the request's vector. -/
def vector : Interrupt → UInt16
  | nmi => 0xFFFA
  | brk | irq => 0xFFFE

/-- Whether the pushed copy of P carries the B bit. -/
def pushesBreak : Interrupt → Bool
  | brk => true
  | nmi | irq => false

theorem pushesBreak_eq (interrupt : Interrupt) : interrupt.pushesBreak = decide (interrupt = .brk) := by
  cases interrupt <;> rfl

/-- Cycles a machine spends on entering a requested interrupt. -/
def entryCycles : UInt32 := 7

/-- Enters the interrupt, to come back to `returnAddress`. -/
def enter (interrupt : Interrupt) (returnAddress : UInt16) (r : Registers) : Exchange Registers := do
  let r ← r.pushWord returnAddress
  let r ← r.push { r.p with breakMark := interrupt.pushesBreak }.toByte
  let handler ← Exchange.word interrupt.vector
  return { r with pc := handler, p := { r.p with interruptDisable := true } }

end Interrupt

/-- Where the address a reset starts at is stored. -/
def resetVector : UInt16 := 0xFFFC

/-- A reset keeps A, X and Y, moves S down by three and continues at the reset vector's address. -/
def Registers.reset (r : Registers) : Exchange Registers := do
  let start ← Exchange.word resetVector
  return { r with p := .afterReset, s := r.s - 3, pc := start }

end NesConsole
