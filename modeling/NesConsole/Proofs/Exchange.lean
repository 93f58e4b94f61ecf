import NesConsole.Processor.Basic
/-!
# What exchanges keep

Two ways to follow an exchange without carrying it out.  `Exchange.Ends` speaks of its results, whatever bytes the bus
answers with.  `Keeps` speaks of the bus: what single reads and writes keep is kept by every exchange, and so by
everything a processor does.
-/
namespace NesConsole

namespace Exchange

variable {α γ : Type}

/-- Every result the exchange can end in satisfies `P`. -/
def Ends (P : α → Prop) : Exchange α → Prop
  | done result => P result
  | read _ next => ∀ value, (next value).Ends P
  | write _ _ next => next.Ends P

theorem Ends.bind {P : α → Prop} {Q : γ → Prop} {e : Exchange α} {f : α → Exchange γ} (he : e.Ends P)
    (hf : ∀ a, P a → (f a).Ends Q) : (e >>= f).Ends Q := by
  show (Exchange.bind e f).Ends Q
  induction e with
  | done a => exact hf a he
  | read _ next ih => exact fun value => ih value (he value)
  | write _ _ next ih => exact ih he

theorem ends_trivial (e : Exchange α) : e.Ends fun _ => True := by
  induction e with
  | done => trivial
  | read _ next ih => exact ih
  | write _ _ next ih => exact ih

/-- What follows an exchange about whose result nothing is known. -/
theorem ends_bind {Q : γ → Prop} (e : Exchange α) {f : α → Exchange γ} (hf : ∀ a, (f a).Ends Q) :
    (e >>= f).Ends Q :=
  e.ends_trivial.bind fun a _ => hf a

theorem Ends.perform {β : Type} [Bus β] {P : α → Prop} {e : Exchange α} (h : e.Ends P) (bus : β) :
    P (e.perform bus).1 := by
  induction e generalizing bus with
  | done => exact h
  | read _ next ih => exact ih _ (h _) _
  | write _ _ next ih => exact ih h _

end Exchange

namespace Processor

/-- What a step makes of the instruction it fetched at `start`: the cycles, and the processor behind it. -/
def conclude (cpu : Processor) (start : UInt16) : Fetched → Nat × Processor
  | .unmapped code =>
    let behind := { cpu.registers with pc := start + 1 }
    (0, { cpu with instructionAddress := start, registers := behind }.stop (.unknownOpcode code start))
  | .executed i behind effect pageCrossed =>
    let cpu := { cpu with instructionAddress := start, operation := some i.operation }.settle behind effect
    (i.totalCycles (effect.elim 0 Effect.extraCycles) pageCrossed,
      { cpu with paused := cpu.paused || cpu.breakpoints.isEnabled cpu.registers.pc })

/-- **A step is one watched exchange and its conclusion.** -/
theorem step_eq {β : Type} [Bus β] (cpu : Processor) (bus : β) :
    cpu.step bus =
      let noted := cpu.noteStep bus
      let fetched := noted.1.exchange noted.1.registers.instruction noted.2
      let concluded := fetched.2.1.conclude noted.1.registers.pc fetched.1
      (concluded.1, concluded.2, fetched.2.2) := by
  unfold step
  rcases cpu.noteStep bus with ⟨noted, bus⟩
  dsimp only
  rcases noted.exchange noted.registers.instruction bus with ⟨_ | _, _, _⟩ <;> rfl

end Processor

/-- Single reads and writes keep `P`. -/
structure Keeps {β : Type} [Bus β] (P : β → Prop) : Prop where
  read : ∀ bus address, P bus → P (Bus.read bus address).2
  write : ∀ bus address value, P bus → P (Bus.write bus address value)

namespace Keeps

variable {α β : Type} [Bus β] {P : β → Prop} {bus : β}

theorem perform (k : Keeps P) (e : Exchange α) (h : P bus) : P (e.perform bus).2 := by
  induction e generalizing bus with
  | done => exact h
  | read _ next ih => exact ih _ (k.read _ _ h)
  | write _ _ next ih => exact ih (k.write _ _ _ h)

theorem exchange (k : Keeps P) (cpu : Processor) (e : Exchange α) (h : P bus) : P (cpu.exchange e bus).2.2 := by
  show P (e.watched cpu.watchpoints cpu.paused bus).2.2
  rw [Exchange.watched_bus]
  exact k.perform e h

theorem noteStep (k : Keeps P) (cpu : Processor) (h : P bus) : P (cpu.noteStep bus).2 := by
  unfold Processor.noteStep
  split
  · exact k.perform _ h
  · exact h

/-- **An instruction keeps what its accesses keep.** -/
theorem step (k : Keeps P) (cpu : Processor) (h : P bus) : P (cpu.step bus).2.2 := by
  rw [Processor.step_eq]
  exact k.exchange (cpu.noteStep bus).1 (cpu.noteStep bus).1.registers.instruction (k.noteStep cpu h)

theorem reset (k : Keeps P) (cpu : Processor) (h : P bus) : P (cpu.reset bus).2 :=
  k.exchange cpu cpu.registers.reset h

theorem nmi (k : Keeps P) (cpu : Processor) (h : P bus) : P (cpu.nmi bus).2 := by
  let noted := cpu.note ("NMI occurred at pc=" ++ hexWord cpu.registers.pc)
  exact k.exchange noted (Interrupt.nmi.enter cpu.registers.pc noted.registers) h

theorem requestIrq (k : Keeps P) (cpu : Processor) (h : P bus) : P (cpu.requestIrq bus).2.2 := by
  unfold Processor.requestIrq
  split
  · exact h
  · let noted := cpu.note ("IRQ occurred at pc=" ++ hexWord cpu.registers.pc)
    exact k.exchange noted (Interrupt.irq.enter cpu.registers.pc noted.registers) h

end Keeps
end NesConsole
