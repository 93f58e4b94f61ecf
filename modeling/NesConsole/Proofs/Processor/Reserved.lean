import NesConsole.Proofs.Exchange
/-!
# The reserved bit

Bit 5 of P reads as 1.  No operation clears it: flags are changed one by one, and a pulled byte gets the bit back
(`Operation.execute_reserved`, by cases on the operations).  Interrupts and resets keep it too, so that only registers
put in place from outside can lack it.
-/
namespace NesConsole

/-- The reserved bit of P is set. -/
def Registers.Reserved (r : Registers) : Prop := r.p.reserved = true

/-- Whatever is left behind, if anything, has the reserved bit. -/
def Effect.Reserved (effect : Option Effect) : Prop := ∀ e ∈ effect, e.registers.Reserved

namespace Registers

theorem push_reserved {r : Registers} (h : r.Reserved) (value : UInt8) : (r.push value).Ends Reserved := h

theorem pushWord_reserved {r : Registers} (h : r.Reserved) (value : UInt16) : (r.pushWord value).Ends Reserved :=
  (push_reserved h _).bind fun _ h => push_reserved h _

theorem pull_reserved {r : Registers} (h : r.Reserved) : r.pull.Ends (·.2.Reserved) := fun _ => h

theorem pullWord_reserved {r : Registers} (h : r.Reserved) : r.pullWord.Ends (·.2.Reserved) :=
  (pull_reserved h).bind fun _ h => (pull_reserved h).bind fun _ h => h

theorem reset_reserved (r : Registers) : r.reset.Ends Reserved := fun _ _ => rfl

end Registers

theorem Interrupt.enter_reserved (interrupt : Interrupt) (returnAddress : UInt16) {r : Registers} (h : r.Reserved) :
    (interrupt.enter returnAddress r).Ends Registers.Reserved :=
  (Registers.pushWord_reserved h _).bind fun _ h => (Registers.push_reserved h _).bind fun _ h => fun _ _ => h

/-! ## What operations leave behind -/

/-- Whatever is left behind, if anything, has registers of this kind. -/
def Effect.Leaves (P : Registers → Prop) (effect : Option Effect) : Prop := ∀ e ∈ effect, P e.registers

namespace Operation

variable {P : Registers → Prop} {r : Registers} (operand : Operand)

theorem none_leaves : Effect.Leaves P none := fun _ h => absurd h (Option.not_mem_none _)

theorem internal_leaves (h : P r) : (internal r).Ends (Effect.Leaves P) := by
  rintro _ ⟨⟩
  exact h

theorem reading_leaves {change : UInt8 → Registers} (h : ∀ value, P (change value)) :
    (reading operand change).Ends (Effect.Leaves P) := by
  unfold reading
  cases operand.address with
  | none => exact none_leaves
  | some address => exact fun value => internal_leaves (h value)

theorem storing_leaves (h : P r) (value : UInt8) : (storing operand r value).Ends (Effect.Leaves P) := by
  unfold storing
  cases operand.address with
  | none => exact none_leaves
  | some address => exact internal_leaves h

theorem replacing_leaves (h : ∀ result, P { r with p := r.p.withResult result }) (change : UInt8 → UInt8) :
    (replacing operand r change).Ends (Effect.Leaves P) := by
  unfold replacing
  cases operand.address with
  | none => exact none_leaves
  | some address => exact fun _ => internal_leaves (h _)

theorem shifting_leaves (h : ∀ a result carry, P { r with a, p := r.p.withCarryResult result carry })
    (shift : UInt8 → Bool → UInt8 × Bool) : (shifting operand r shift).Ends (Effect.Leaves P) := by
  unfold shifting
  cases operand.address with
  | none => exact internal_leaves (h _ _ _)
  | some address => exact fun _ => internal_leaves (h _ _ _)

theorem branching_leaves (h : ∀ pc, P { r with pc }) (taken : Bool) :
    (branching operand r taken).Ends (Effect.Leaves P) := by
  unfold branching
  cases taken with
  | false => exact internal_leaves (h r.pc)
  | true =>
    cases operand.address with
    | none => exact none_leaves
    | some address =>
      rintro offset _ ⟨⟩
      exact h _

/-- **No operation clears the reserved bit.** -/
theorem execute_reserved (operation : Operation) (operand : Operand) {r : Registers} (h : r.Reserved) :
    (operation.execute operand r).Ends Effect.Reserved := by
  change (operation.execute operand r).Ends (Effect.Leaves Registers.Reserved)
  cases operation with
  | lda | ldx | ldy | adc | sbc | and | ora | eor | bit | cmp | cpx | cpy => exact reading_leaves operand fun _ => h
  | sta | stx | sty => exact storing_leaves operand h _
  | tax | tay | tsx | txa | tya | txs | inx | iny | dex | dey | clc | cld | cli | clv | sec | sed | sei | nop =>
    exact internal_leaves h
  | inc | dec => exact replacing_leaves operand (fun _ => h) _
  | asl => exact shifting_leaves operand (fun _ _ _ => h) shiftLeft
  | lsr => exact shifting_leaves operand (fun _ _ _ => h) shiftRight
  | rol => exact shifting_leaves operand (fun _ _ _ => h) rotateLeft
  | ror => exact shifting_leaves operand (fun _ _ _ => h) rotateRight
  | pha | php => exact (Registers.push_reserved h _).bind fun _ h => internal_leaves h
  | pla => exact (Registers.pull_reserved h).bind fun _ h => internal_leaves h
  | plp => exact Exchange.ends_bind _ fun _ => internal_leaves rfl
  | jmp =>
    unfold execute
    cases operand.address with
    | none => exact none_leaves
    | some address => exact internal_leaves h
  | jsr =>
    unfold execute
    cases operand.address with
    | none => exact none_leaves
    | some address => exact (Registers.pushWord_reserved h _).bind fun _ h => internal_leaves h
  | rts => exact (Registers.pullWord_reserved h).bind fun _ h => internal_leaves h
  | rti =>
    refine Exchange.ends_bind _ fun pulled => ?_
    have hp : Registers.Reserved { pulled.2 with p := .pulled pulled.1 } := rfl
    exact (Registers.pullWord_reserved hp).bind fun _ h => internal_leaves h
  | brk => exact (Interrupt.enter_reserved .brk _ h).bind fun _ h => internal_leaves h
  | bcc | bcs | bne | beq | bpl | bmi | bvc | bvs => exact branching_leaves operand (fun _ => h) _

end Operation

namespace Processor

variable {β : Type} [Bus β]

theorem note_registers (cpu : Processor) (line : String) : (cpu.note line).registers = cpu.registers := by
  unfold note
  split <;> rfl

theorem noteStep_registers (cpu : Processor) (bus : β) : (cpu.noteStep bus).1.registers = cpu.registers := by
  unfold noteStep
  split
  · exact note_registers cpu _
  · rfl

/-- What an instruction can end in when it is begun with the reserved bit. -/
def Fetched.Reserved : Fetched → Prop
  | .unmapped _ => True
  | .executed _ behind effect _ => behind.Reserved ∧ Effect.Reserved effect

theorem instruction_reserved {r : Registers} (h : r.Reserved) : r.instruction.Ends Fetched.Reserved := by
  unfold Registers.instruction
  refine Exchange.ends_bind _ fun code => ?_
  cases Instruction.decode code with
  | none => trivial
  | some i =>
    refine Exchange.ends_bind _ fun operand => ?_
    have hb : Registers.Reserved { r with pc := r.pc + UInt16.ofNat i.size } := h
    exact (i.operation.execute_reserved operand hb).bind fun _ heffect => ⟨h, heffect⟩

theorem conclude_reserved {cpu : Processor} (h : cpu.registers.Reserved) (start : UInt16) {fetched : Fetched}
    (hf : Fetched.Reserved fetched) : (cpu.conclude start fetched).2.registers.Reserved := by
  cases fetched with
  | unmapped => exact h
  | executed i behind effect pageCrossed =>
    cases effect with
    | none => exact hf.1
    | some effect => exact hf.2 effect rfl

/-- **A step keeps the reserved bit.** -/
theorem step_reserved {cpu : Processor} (h : cpu.registers.Reserved) (bus : β) :
    (cpu.step bus).2.1.registers.Reserved := by
  rw [step_eq]
  have hnoted : (cpu.noteStep bus).1.registers.Reserved := by rw [noteStep_registers]; exact h
  let fetched := (cpu.noteStep bus).1.exchange (cpu.noteStep bus).1.registers.instruction (cpu.noteStep bus).2
  have hregisters : fetched.2.1.registers.Reserved := hnoted
  have hfetched : Fetched.Reserved fetched.1 := by
    show Fetched.Reserved (Exchange.watched _ _ _ _).1
    rw [Exchange.watched_fst]
    exact (instruction_reserved hnoted).perform _
  exact conclude_reserved hregisters _ hfetched

theorem reset_reserved (cpu : Processor) (bus : β) : (cpu.reset bus).1.registers.Reserved := by
  show Registers.Reserved (cpu.registers.reset.watched cpu.watchpoints cpu.paused bus).1
  rw [Exchange.watched_fst]
  exact cpu.registers.reset_reserved.perform bus

theorem nmi_reserved {cpu : Processor} (h : cpu.registers.Reserved) (bus : β) : (cpu.nmi bus).1.registers.Reserved := by
  let noted := cpu.note ("NMI occurred at pc=" ++ hexWord cpu.registers.pc)
  have hnoted : noted.registers.Reserved := by rw [note_registers]; exact h
  show Registers.Reserved (Exchange.watched noted.watchpoints (Interrupt.nmi.enter _ noted.registers) noted.paused bus).1
  rw [Exchange.watched_fst]
  exact (Interrupt.nmi.enter_reserved _ hnoted).perform bus

theorem requestIrq_reserved {cpu : Processor} (h : cpu.registers.Reserved) (bus : β) :
    (cpu.requestIrq bus).2.1.registers.Reserved := by
  unfold requestIrq
  split
  · exact h
  · let noted := cpu.note ("IRQ occurred at pc=" ++ hexWord cpu.registers.pc)
    have hnoted : noted.registers.Reserved := by rw [note_registers]; exact h
    show Registers.Reserved
      (Exchange.watched noted.watchpoints (Interrupt.irq.enter _ noted.registers) noted.paused bus).1
    rw [Exchange.watched_fst]
    exact (Interrupt.irq.enter_reserved _ hnoted).perform bus

end Processor
end NesConsole
