import NesConsole.Proofs.Console.Destinations
import NesConsole.Proofs.Host
import NesConsole.Proofs.Processor.Forms
import NesConsole.Proofs.Processor.Listing
/-!
# Sprite transfers and the cycles they cost

A write to `$4014` starts a sprite transfer, for which the bus owes a stall.  What an exchange leaves owed is the number of
transfers it started (`ConsoleBus.stall_perform`), so a bound on the stall is a bound on accesses: reading an operand, the
stack and the vectors starts none, and an operation of any form at most one (`Operation.Form.transfers_le`).
-/
namespace NesConsole

/-- No board takes the write that starts a transfer, so every such write starts one. -/
def Access.startsTransfer : Access → Bool
  | .read _ _ => false
  | .write address _ => address == 0x4014

namespace Exchange

variable {α γ β : Type} [Bus β]

/-- How many sprite transfers the exchange starts. -/
def transfers (e : Exchange α) (bus : β) : Nat :=
  (e.accesses bus).countP Access.startsTransfer

@[simp] theorem transfers_pure (a : α) (bus : β) : transfers (pure a) bus = 0 := rfl

@[simp] theorem transfers_byte (address : UInt16) (bus : β) : (byte address).transfers bus = 0 := rfl

@[simp] theorem transfers_word (address : UInt16) (bus : β) : (word address).transfers bus = 0 := rfl

@[simp] theorem transfers_store (address : UInt16) (value : UInt8) (bus : β) :
    (store address value).transfers bus = if address = 0x4014 then 1 else 0 := by
  simp [transfers, List.countP_cons, Access.startsTransfer]

@[simp] theorem transfers_seq (e : Exchange α) (f : α → Exchange γ) (bus : β) :
    (e >>= f).transfers bus = e.transfers bus + (f (e.perform bus).1).transfers (e.perform bus).2 := by
  simp only [transfers, accesses_seq, List.countP_append]

@[simp] theorem transfers_map (f : α → γ) (e : Exchange α) (bus : β) : (f <$> e).transfers bus = e.transfers bus := by
  rw [← bind_pure_comp, transfers_seq]
  simp

end Exchange

/-! ## What starts no transfer -/

section

variable {β : Type} [Bus β]

namespace Registers

theorem stack_ne_transfer (s : UInt8) : stackPage + s.toUInt16 ≠ 0x4014 := by
  intro h
  have hs : s.toNat < 256 := s.toNat_lt
  have hnat := congrArg UInt16.toNat h
  simp only [stackPage, UInt16.toNat_add, UInt8.toNat_toUInt16] at hnat
  have hport : (0x4014 : UInt16).toNat = 0x4014 := rfl
  have hpage : (0x0100 : UInt16).toNat = 0x0100 := rfl
  omega

@[simp] theorem transfers_push (r : Registers) (value : UInt8) (bus : β) : (r.push value).transfers bus = 0 := by
  simp [push, stack_ne_transfer]

@[simp] theorem transfers_pushWord (r : Registers) (value : UInt16) (bus : β) : (r.pushWord value).transfers bus = 0 := by
  simp [pushWord]

@[simp] theorem transfers_pull (r : Registers) (bus : β) : r.pull.transfers bus = 0 := by
  simp [pull]

@[simp] theorem transfers_pullWord (r : Registers) (bus : β) : r.pullWord.transfers bus = 0 := by
  simp [pullWord]

@[simp] theorem transfers_reset (r : Registers) (bus : β) : r.reset.transfers bus = 0 := by
  simp [reset]

end Registers

@[simp] theorem Interrupt.transfers_enter (interrupt : Interrupt) (returnAddress : UInt16) (r : Registers) (bus : β) :
    (interrupt.enter returnAddress r).transfers bus = 0 := by
  simp [enter]

@[simp] theorem AddressMode.transfers_resolve (mode : AddressMode) (position : UInt16) (r : Registers) (bus : β) :
    (mode.resolve position r).transfers bus = 0 := by
  cases mode <;> rfl

/-! ## What starts at most one -/

@[simp] theorem Operation.transfers_internal (r : Registers) (bus : β) : (internal r).transfers bus = 0 := rfl

/-- **An operation starts at most one transfer**, with the byte it stores. -/
theorem Operation.Form.transfers_le {operation : Operation} {operand : Operand} {r : Registers}
    {e : Exchange (Option Effect)} (h : Form operation operand r e) (bus : β) : e.transfers bus ≤ 1 := by
  have hstored (address : UInt16) : (if address = 0x4014 then 1 else 0) ≤ 1 := by split <;> decide
  cases h with
  | reading change =>
    unfold Operation.reading
    cases operand.address <;> simp
  | storing value =>
    unfold Operation.storing
    cases operand.address <;> simp [hstored]
  | replacing change =>
    unfold Operation.replacing
    cases operand.address <;> simp [hstored]
  | shifting shift =>
    unfold Operation.shifting
    cases operand.address <;> simp [hstored]
  | branching taken =>
    unfold Operation.branching
    cases taken with
    | false => simp
    | true => cases operand.address <;> simp
  | jumping => cases operand.address <;> simp
  | calling => cases operand.address <;> simp
  | internal | pushing | pulling | returning | resuming | breaking => simp

theorem Registers.transfers_instruction (r : Registers) (bus : β) : r.instruction.transfers bus ≤ 1 := by
  rw [Registers.instruction_eq, Exchange.transfers_seq, Exchange.transfers_byte, Nat.zero_add]
  generalize (Exchange.perform _ bus).1 = code
  unfold Registers.decoded
  cases Instruction.decode code with
  | none => simp
  | some i =>
    simp only [Exchange.transfers_seq, AddressMode.transfers_resolve, Exchange.transfers_pure, Nat.zero_add, Nat.add_zero]
    exact (i.operation.execute_form _ _).transfers_le _

end

/-! ## What the bus owes for them -/

namespace ConsoleBus

variable {α π : Type} [VideoUnit π]

theorem read_stall (bus : ConsoleBus π) (address : UInt16) : (Bus.read bus address).2.stall = bus.stall :=
  (bus.read_memory address).2.2

theorem write_stall (bus : ConsoleBus π) (address : UInt16) (value : UInt8) :
    (Bus.write bus address value).stall = if address = 0x4014 then bus.stall + 513 else bus.stall := by
  have hstall := (bus.write_delivers address value).stall
  simpa only [destination_eq_sprites] using hstall

/-- **An exchange leaves the bus owing for the transfers it started**, and for nothing else, modulo the range of a word. -/
theorem stall_perform (e : Exchange α) (bus : ConsoleBus π) :
    (e.perform bus).2.stall = bus.stall + 513 * UInt32.ofNat (e.transfers bus) := by
  induction e generalizing bus with
  | done => exact (UInt32.add_zero bus.stall).symm
  | read address next ih =>
    exact (ih _ _).trans (congrArg (· + _) (read_stall bus address))
  | write address value next ih =>
    have hcount : (Exchange.write address value next).transfers bus =
        next.transfers (Bus.write bus address value) + if address = 0x4014 then 1 else 0 := by
      simp [Exchange.transfers, Exchange.accesses, List.countP_cons, Access.startsTransfer]
    rw [hcount]
    refine (ih _).trans ?_
    rw [write_stall, UInt32.ofNat_add, UInt32.mul_add]
    split
    · rw [UInt32.add_assoc, UInt32.add_comm 513]
      rfl
    · exact congrArg (bus.stall + ·) (UInt32.add_zero _).symm

end ConsoleBus

namespace Processor

variable {α π β : Type} [VideoUnit π]

/-- Whether the instruction to come starts a transfer. -/
def startsTransfer [Bus β] (cpu : Processor) (bus : β) : Bool :=
  (cpu.accesses bus).any Access.startsTransfer

theorem transfers_eq [Bus β] (cpu : Processor) (bus : β) :
    cpu.registers.instruction.transfers (cpu.listed bus) = (cpu.startsTransfer bus).toNat := by
  have hle := cpu.registers.transfers_instruction (cpu.listed bus)
  unfold startsTransfer accesses
  unfold Exchange.transfers at hle ⊢
  cases hany : (cpu.registers.instruction.accesses (cpu.listed bus)).any Access.startsTransfer with
  | false => simpa [List.countP_eq_zero] using hany
  | true =>
    have hpos := List.countP_pos_iff.2 (List.any_eq_true.1 hany)
    change _ = 1
    omega

/-- An exchange that starts no transfer leaves the bus owing what it owed. -/
theorem exchange_stall (cpu : Processor) {e : Exchange α} {bus : ConsoleBus π} (h : e.transfers bus = 0) :
    (cpu.exchange e bus).2.2.stall = bus.stall := by
  have howed := ConsoleBus.stall_perform e bus
  rw [h] at howed
  rw [exchange_eq]
  exact howed.trans (UInt32.add_zero _)

theorem listed_stall (cpu : Processor) (bus : ConsoleBus π) : (cpu.listed bus).stall = bus.stall := by
  apply cpu.listed_keeps (P := fun listed : ConsoleBus π => listed.stall = bus.stall) rfl
  intro listed i hi h
  exact (ConsoleBus.read_stall listed _).trans h

/-- **A step leaves the bus owing for the transfer of its instruction**, if it starts one. -/
theorem step_stall (cpu : Processor) (bus : ConsoleBus π) :
    (cpu.step bus).2.2.stall = if cpu.startsTransfer bus then bus.stall + 513 else bus.stall := by
  have howed := ConsoleBus.stall_perform cpu.registers.instruction (cpu.listed bus)
  rw [transfers_eq, listed_stall] at howed
  rw [step_performed]
  refine howed.trans ?_
  cases cpu.startsTransfer bus with
  | false => exact UInt32.add_zero _
  | true => rfl

theorem reset_stall (cpu : Processor) (bus : ConsoleBus π) : (cpu.reset bus).2.stall = bus.stall :=
  cpu.exchange_stall (cpu.registers.transfers_reset bus)

theorem nmi_stall (cpu : Processor) (bus : ConsoleBus π) : (cpu.nmi bus).2.stall = bus.stall := by
  let noted := cpu.note ("NMI occurred at pc=" ++ hexWord cpu.registers.pc)
  exact noted.exchange_stall (Interrupt.nmi.transfers_enter _ _ bus)

theorem requestIrq_stall (cpu : Processor) (bus : ConsoleBus π) : (cpu.requestIrq bus).2.2.stall = bus.stall := by
  unfold requestIrq
  split
  · rfl
  · let noted := cpu.note ("IRQ occurred at pc=" ++ hexWord cpu.registers.pc)
    exact noted.exchange_stall (Interrupt.irq.transfers_enter _ _ bus)

end Processor
end NesConsole
