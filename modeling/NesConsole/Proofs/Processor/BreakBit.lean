import NesConsole.Proofs.Processor.Pausing
/-!
# Nothing reads the break bit

The register P has a B bit, which pulls and resets set or clear, but every copy of P that is pushed gets a B bit of its
own.  So two processors that differ in this bit alone ask any bus for the same accesses: their exchanges are parallel
(`Exchange.Parallel`), operation by operation, and no run of events ever tells them apart
(`Processor.break_unobservable`).
-/
namespace NesConsole

/-! ## Parallel exchanges -/

namespace Exchange

variable {α γ β : Type} [Bus β]

/-- The two exchanges ask for the same accesses, whatever bytes they get, and end in results that are related. -/
inductive Parallel (R : α → α → Prop) : Exchange α → Exchange α → Prop where
  | done {a b : α} (h : R a b) : Parallel R (done a) (done b)
  | read {address : UInt16} {next next' : UInt8 → Exchange α} (h : ∀ value, Parallel R (next value) (next' value)) :
      Parallel R (read address next) (read address next')
  | write {address : UInt16} {value : UInt8} {next next' : Exchange α} (h : Parallel R next next') :
      Parallel R (write address value next) (write address value next')

namespace Parallel

variable {R : α → α → Prop} {S : γ → γ → Prop} {e e' : Exchange α} {f f' : α → Exchange γ}

theorem bind (he : Parallel R e e') (hf : ∀ a b, R a b → Parallel S (f a) (f' b)) :
    Parallel S (e >>= f) (e' >>= f') := by
  induction he with
  | done h => exact hf _ _ h
  | read _ ih => exact .read ih
  | write _ ih => exact .write ih

/-- What follows one exchange in two ways. -/
theorem after (e : Exchange α) (hf : ∀ a, Parallel S (f a) (f' a)) : Parallel S (e >>= f) (e >>= f') := by
  show Parallel S (Exchange.bind e f) (Exchange.bind e f')
  induction e with
  | done a => exact hf a
  | read _ _ ih => exact .read ih
  | write _ _ _ ih => exact .write ih

/-- **Parallel exchanges cannot be told apart on a bus.** -/
theorem perform (h : Parallel R e e') (bus : β) :
    R (e.perform bus).1 (e'.perform bus).1 ∧ (e'.perform bus).2 = (e.perform bus).2 ∧
      e'.accesses bus = e.accesses bus := by
  induction h generalizing bus with
  | done h => exact ⟨h, rfl, rfl⟩
  | @read address next next' _ ih =>
    obtain ⟨hresult, hbus, haccesses⟩ := ih (Bus.read bus address).1 (Bus.read bus address).2
    exact ⟨hresult, hbus, congrArg (List.cons _) haccesses⟩
  | write _ ih =>
    obtain ⟨hresult, hbus, haccesses⟩ := ih _
    exact ⟨hresult, hbus, congrArg (List.cons _) haccesses⟩

end Parallel
end Exchange

open Exchange (Parallel)

/-! ## Registers -/

namespace Registers

def marked (r : Registers) (breakMark : Bool) : Registers := { r with p := { r.p with breakMark } }

/-- The registers are the same but for the B bit. -/
def SameButMark (r r' : Registers) : Prop := ∃ mark, r' = r.marked mark

theorem SameButMark.refl (r : Registers) : r.SameButMark r := ⟨r.p.breakMark, rfl⟩

variable {r r' : Registers}

theorem push_parallel (h : r.SameButMark r') (value : UInt8) : Parallel SameButMark (r.push value) (r'.push value) := by
  obtain ⟨mark, rfl⟩ := h
  exact .write (.done ⟨mark, rfl⟩)

theorem pushWord_parallel (h : r.SameButMark r') (value : UInt16) :
    Parallel SameButMark (r.pushWord value) (r'.pushWord value) :=
  (push_parallel h _).bind fun _ _ h => push_parallel h _

/-- A pulled value, and the registers behind the pull. -/
def SamePulled {α : Type} (a b : α × Registers) : Prop := ∃ mark, b = (a.1, a.2.marked mark)

theorem pull_parallel (h : r.SameButMark r') : Parallel SamePulled r.pull r'.pull := by
  obtain ⟨mark, rfl⟩ := h
  exact .read fun _ => .done ⟨mark, rfl⟩

theorem pullWord_parallel (h : r.SameButMark r') : Parallel SamePulled r.pullWord r'.pullWord := by
  refine (pull_parallel h).bind ?_
  rintro ⟨low, r⟩ _ ⟨mark, rfl⟩
  refine (pull_parallel ⟨mark, rfl⟩).bind ?_
  rintro ⟨high, r⟩ _ ⟨mark, rfl⟩
  exact .done ⟨mark, rfl⟩

theorem reset_parallel (h : r.SameButMark r') : Parallel SameButMark r.reset r'.reset := by
  obtain ⟨mark, rfl⟩ := h
  exact .after _ fun _ => .done (SameButMark.refl _)

end Registers

open Registers (SameButMark)

/-- The copy of P that an interrupt pushes has a B bit of its own. -/
theorem Interrupt.enter_parallel (interrupt : Interrupt) (returnAddress : UInt16) {r r' : Registers}
    (h : r.SameButMark r') :
    Parallel SameButMark (interrupt.enter returnAddress r) (interrupt.enter returnAddress r') := by
  refine (Registers.pushWord_parallel h returnAddress).bind ?_
  rintro r _ ⟨mark, rfl⟩
  refine (Registers.push_parallel ⟨mark, rfl⟩ _).bind ?_
  rintro r _ ⟨mark, rfl⟩
  exact .after _ fun _ => .done ⟨mark, rfl⟩

theorem AddressMode.resolve_marked (mode : AddressMode) (position : UInt16) (r : Registers) (mark : Bool) :
    mode.resolve position (r.marked mark) = mode.resolve position r := by
  cases mode <;> rfl

/-! ## Operations -/

/-- The same outcome, with registers that are the same but for the B bit. -/
def Effect.SameButMark : Option Effect → Option Effect → Prop :=
  Option.Rel fun e e' => e.registers.SameButMark e'.registers ∧ e'.extraCycles = e.extraCycles

namespace Operation

variable {r r' : Registers}

theorem internal_parallel (h : r.SameButMark r') : Parallel Effect.SameButMark (internal r) (internal r') :=
  .done (.some ⟨h, rfl⟩)

theorem reading_parallel (operand : Operand) {change change' : UInt8 → Registers}
    (h : ∀ value, (change value).SameButMark (change' value)) :
    Parallel Effect.SameButMark (reading operand change) (reading operand change') := by
  unfold reading
  cases operand.address with
  | none => exact .done .none
  | some address => exact .read fun value => internal_parallel (h value)

theorem storing_parallel (operand : Operand) (h : r.SameButMark r') (value : UInt8) :
    Parallel Effect.SameButMark (storing operand r value) (storing operand r' value) := by
  unfold storing
  cases operand.address with
  | none => exact .done .none
  | some address => exact .write (internal_parallel h)

theorem replacing_parallel (operand : Operand) (h : r.SameButMark r') (change : UInt8 → UInt8) :
    Parallel Effect.SameButMark (replacing operand r change) (replacing operand r' change) := by
  obtain ⟨mark, rfl⟩ := h
  unfold replacing
  cases operand.address with
  | none => exact .done .none
  | some address => exact .read fun _ => .write (internal_parallel ⟨mark, rfl⟩)

theorem shifting_parallel (operand : Operand) (h : r.SameButMark r') (shift : UInt8 → Bool → UInt8 × Bool) :
    Parallel Effect.SameButMark (shifting operand r shift) (shifting operand r' shift) := by
  obtain ⟨mark, rfl⟩ := h
  unfold shifting
  cases operand.address with
  | none => exact internal_parallel ⟨mark, rfl⟩
  | some address => exact .read fun _ => .write (internal_parallel ⟨mark, rfl⟩)

theorem branching_parallel (operand : Operand) (h : r.SameButMark r') (taken : Bool) :
    Parallel Effect.SameButMark (branching operand r taken) (branching operand r' taken) := by
  unfold branching
  cases taken with
  | false => exact internal_parallel h
  | true =>
    obtain ⟨mark, rfl⟩ := h
    cases operand.address with
    | none => exact .done .none
    | some address => exact .read fun _ => .done (.some ⟨⟨mark, rfl⟩, rfl⟩)

/-- **No operation reads the B bit**: flags are changed one by one, a copy of P that is pushed gets its own, and one
that is pulled replaces it. -/
theorem execute_parallel (operation : Operation) (operand : Operand) (r : Registers) (mark : Bool) :
    Parallel Effect.SameButMark (operation.execute operand r) (operation.execute operand (r.marked mark)) := by
  have h : r.SameButMark (r.marked mark) := ⟨mark, rfl⟩
  cases operation with
  | lda | ldx | ldy | adc | sbc | and | ora | eor | bit | cmp | cpx | cpy =>
    exact reading_parallel operand fun _ => ⟨mark, rfl⟩
  | sta | stx | sty => exact storing_parallel operand h _
  | inc | dec => exact replacing_parallel operand h _
  | asl => exact shifting_parallel operand h shiftLeft
  | lsr => exact shifting_parallel operand h shiftRight
  | rol => exact shifting_parallel operand h rotateLeft
  | ror => exact shifting_parallel operand h rotateRight
  | bcc | bcs | bpl | bmi | bne | beq | bvc | bvs => exact branching_parallel operand h _
  | tax | tay | tsx | txa | tya | txs | inx | iny | dex | dey | clc | cld | cli | clv | sec | sed | sei | nop =>
    exact internal_parallel ⟨mark, rfl⟩
  | pha | php => exact (Registers.push_parallel h _).bind fun _ _ h => internal_parallel h
  | pla =>
    refine (Registers.pull_parallel h).bind ?_
    rintro ⟨value, r⟩ _ ⟨mark, rfl⟩
    exact internal_parallel ⟨mark, rfl⟩
  | plp =>
    refine (Registers.pull_parallel h).bind ?_
    rintro ⟨value, r⟩ _ ⟨mark, rfl⟩
    exact internal_parallel (SameButMark.refl _)
  | jmp =>
    unfold execute
    cases operand.address with
    | none => exact .done .none
    | some address => exact internal_parallel ⟨mark, rfl⟩
  | jsr =>
    unfold execute
    cases operand.address with
    | none => exact .done .none
    | some address =>
      refine (Registers.pushWord_parallel h _).bind ?_
      rintro r _ ⟨mark, rfl⟩
      exact internal_parallel ⟨mark, rfl⟩
  | rts =>
    refine (Registers.pullWord_parallel h).bind ?_
    rintro ⟨address, r⟩ _ ⟨mark, rfl⟩
    exact internal_parallel ⟨mark, rfl⟩
  | rti =>
    refine (Registers.pull_parallel h).bind ?_
    rintro ⟨value, r⟩ _ ⟨mark, rfl⟩
    refine (Registers.pullWord_parallel (SameButMark.refl _)).bind ?_
    rintro ⟨address, r⟩ _ ⟨mark, rfl⟩
    exact internal_parallel ⟨mark, rfl⟩
  | brk => exact (Interrupt.enter_parallel .brk _ h).bind fun _ _ h => internal_parallel h

end Operation

/-! ## Instructions -/

/-- The same instruction fetched, with registers that are the same but for the B bit. -/
inductive Fetched.SameButMark : Fetched → Fetched → Prop where
  | unmapped (code : UInt8) : SameButMark (.unmapped code) (.unmapped code)
  | executed (i : Instruction) {behind behind' : Registers} {effect effect' : Option Effect} (pageCrossed : Bool)
      (hbehind : behind.SameButMark behind') (heffect : Effect.SameButMark effect effect') :
      SameButMark (.executed i behind effect pageCrossed) (.executed i behind' effect' pageCrossed)

theorem Registers.instruction_parallel (r : Registers) (mark : Bool) :
    Parallel Fetched.SameButMark r.instruction (r.marked mark).instruction := by
  rw [instruction_eq, instruction_eq]
  refine .after _ fun code => ?_
  unfold decoded
  cases Instruction.decode code with
  | none => exact .done (.unmapped code)
  | some i =>
    dsimp only
    rw [AddressMode.resolve_marked]
    refine .after _ fun operand => ?_
    exact (i.operation.execute_parallel operand _ mark).bind fun _ _ h => .done (.executed i _ ⟨mark, rfl⟩ h)

/-! ## Processors -/

namespace Processor

variable {β : Type} [Bus β]

def marked (cpu : Processor) (breakMark : Bool) : Processor :=
  { cpu with registers := cpu.registers.marked breakMark }

/-- The processors are the same but for the B bit of P. -/
def SameButMark (cpu cpu' : Processor) : Prop := ∃ mark, cpu' = cpu.marked mark

theorem sameButMark_of_registers (cpu : Processor) {r r' : Registers} (h : r.SameButMark r') :
    SameButMark { cpu with registers := r } { cpu with registers := r' } := by
  obtain ⟨mark, rfl⟩ := h
  exact ⟨mark, rfl⟩

theorem note_marked (cpu : Processor) (mark : Bool) (line : String) :
    (cpu.marked mark).note line = (cpu.note line).marked mark := by
  unfold note
  by_cases hd : cpu.debug = true
  · rw [if_pos hd, if_pos (show (cpu.marked mark).debug = true from hd)]
    rfl
  · rw [if_neg hd, if_neg (show ¬(cpu.marked mark).debug = true from hd)]

theorem noteStep_marked (cpu : Processor) (mark : Bool) (bus : β) :
    (cpu.marked mark).noteStep bus = ((cpu.noteStep bus).1.marked mark, (cpu.noteStep bus).2) := by
  unfold noteStep
  by_cases hd : cpu.debug = true
  · rw [if_pos hd, if_pos (show (cpu.marked mark).debug = true from hd)]
    exact congrArg (·, _) (cpu.note_marked mark _)
  · rw [if_neg hd, if_neg (show ¬(cpu.marked mark).debug = true from hd)]

theorem fetched_marked (cpu : Processor) (mark : Bool) (bus : β) :
    (cpu.fetched bus).1.SameButMark ((cpu.marked mark).fetched bus).1 ∧
      ((cpu.marked mark).fetched bus).2 = (cpu.fetched bus).2 ∧
      (cpu.marked mark).watched bus = (cpu.watched bus).marked mark := by
  obtain ⟨hresult, hbus, haccesses⟩ := (cpu.registers.instruction_parallel mark).perform (cpu.listed bus)
  have hlisted : (cpu.marked mark).listed bus = cpu.listed bus := by
    unfold listed
    rw [noteStep_marked]
  have hmade : (cpu.marked mark).accesses bus = cpu.accesses bus := by
    unfold accesses
    rw [hlisted]
    exact haccesses
  unfold fetched watched
  rw [hlisted, hmade, noteStep_marked]
  exact ⟨hresult, hbus, rfl⟩

theorem settle_marked (cpu : Processor) (mark : Bool) {behind behind' : Registers} {effect effect' : Option Effect}
    (hbehind : behind.SameButMark behind') (heffect : Effect.SameButMark effect effect') :
    (cpu.settle behind effect).SameButMark ((cpu.marked mark).settle behind' effect') := by
  cases heffect with
  | none => exact sameButMark_of_registers (cpu.stop (.missingOperand cpu.operation cpu.instructionAddress)) hbehind
  | some h => exact sameButMark_of_registers cpu h.1

theorem conclude_marked (cpu : Processor) (mark : Bool) (start : UInt16) {fetched fetched' : Fetched}
    (h : fetched.SameButMark fetched') :
    ((cpu.marked mark).conclude start fetched').1 = (cpu.conclude start fetched).1 ∧
      (cpu.conclude start fetched).2.SameButMark ((cpu.marked mark).conclude start fetched').2 := by
  cases h with
  | unmapped code => exact ⟨rfl, mark, rfl⟩
  | @executed i behind behind' effect effect' pageCrossed hbehind heffect =>
    have hextra : effect'.elim 0 Effect.extraCycles = effect.elim 0 Effect.extraCycles := by
      cases heffect with
      | none => rfl
      | some h => exact h.2
    obtain ⟨mark', hsettled⟩ := settle_marked
      { cpu with instructionAddress := start, operation := some i.operation } mark hbehind heffect
    refine ⟨congrArg (i.totalCycles · pageCrossed) hextra, mark', ?_⟩
    exact congrArg (fun cpu : Processor =>
      { cpu with paused := cpu.paused || cpu.breakpoints.isEnabled cpu.registers.pc }) hsettled

theorem step_marked (cpu : Processor) (mark : Bool) (bus : β) :
    ((cpu.marked mark).step bus).1 = (cpu.step bus).1 ∧
      (cpu.step bus).2.1.SameButMark ((cpu.marked mark).step bus).2.1 ∧
      ((cpu.marked mark).step bus).2.2 = (cpu.step bus).2.2 := by
  obtain ⟨hfetched, hbus, hwatched⟩ := cpu.fetched_marked mark bus
  obtain ⟨hcycles, hcpu⟩ := (cpu.watched bus).conclude_marked mark cpu.registers.pc hfetched
  rw [step_performed, step_performed, hwatched]
  exact ⟨hcycles, hcpu, hbus⟩

/-- Parallel exchanges leave processors that are the same but for the B bit. -/
theorem exchange_marked {α : Type} {R : α → α → Prop} {e e' : Exchange α} (cpu : Processor) (mark : Bool)
    (h : Parallel R e e') (bus : β) :
    R (cpu.exchange e bus).1 ((cpu.marked mark).exchange e' bus).1 ∧
      ((cpu.marked mark).exchange e' bus).2.1 = (cpu.exchange e bus).2.1.marked mark ∧
      ((cpu.marked mark).exchange e' bus).2.2 = (cpu.exchange e bus).2.2 := by
  obtain ⟨hresult, hbus, haccesses⟩ := h.perform bus
  simp only [exchange_eq, hbus, haccesses]
  exact ⟨hresult, rfl, trivial⟩

theorem enter_marked (cpu : Processor) (mark : Bool) (interrupt : Interrupt) (line : String) (bus : β) :
    let entered := (cpu.note line).exchange (interrupt.enter cpu.registers.pc (cpu.note line).registers) bus
    let entered' := ((cpu.marked mark).note line).exchange
      (interrupt.enter cpu.registers.pc ((cpu.marked mark).note line).registers) bus
    entered.1.SameButMark entered'.1 ∧ entered'.2.1 = entered.2.1.marked mark ∧ entered'.2.2 = entered.2.2 := by
  rw [note_marked]
  exact exchange_marked _ mark (interrupt.enter_parallel _ ⟨mark, rfl⟩) bus

theorem nmi_marked (cpu : Processor) (mark : Bool) (bus : β) :
    (cpu.nmi bus).1.SameButMark ((cpu.marked mark).nmi bus).1 ∧ ((cpu.marked mark).nmi bus).2 = (cpu.nmi bus).2 := by
  obtain ⟨⟨mark', hregisters⟩, hcpu, hbus⟩ :=
    cpu.enter_marked mark .nmi ("NMI occurred at pc=" ++ hexWord cpu.registers.pc) bus
  refine ⟨⟨mark', ?_⟩, hbus⟩
  simp only [nmi, marked, Registers.marked] at *
  rw [hregisters, hcpu]

theorem requestIrq_marked (cpu : Processor) (mark : Bool) (bus : β) :
    ((cpu.marked mark).requestIrq bus).1 = (cpu.requestIrq bus).1 ∧
      (cpu.requestIrq bus).2.1.SameButMark ((cpu.marked mark).requestIrq bus).2.1 ∧
      ((cpu.marked mark).requestIrq bus).2.2 = (cpu.requestIrq bus).2.2 := by
  obtain ⟨⟨mark', hregisters⟩, hcpu, hbus⟩ :=
    cpu.enter_marked mark .irq ("IRQ occurred at pc=" ++ hexWord cpu.registers.pc) bus
  unfold requestIrq
  by_cases hmasked : cpu.registers.p.interruptDisable = true
  · rw [if_pos hmasked, if_pos (show (cpu.marked mark).registers.p.interruptDisable = true from hmasked)]
    exact ⟨rfl, ⟨mark, rfl⟩, rfl⟩
  · rw [if_neg hmasked, if_neg (show ¬(cpu.marked mark).registers.p.interruptDisable = true from hmasked)]
    refine ⟨rfl, ⟨mark', ?_⟩, hbus⟩
    simp only [marked, Registers.marked] at *
    rw [hregisters, hcpu]

theorem reset_marked (cpu : Processor) (mark : Bool) (bus : β) :
    (cpu.reset bus).1.SameButMark ((cpu.marked mark).reset bus).1 ∧
      ((cpu.marked mark).reset bus).2 = (cpu.reset bus).2 := by
  obtain ⟨⟨mark', hregisters⟩, hcpu, hbus⟩ :=
    cpu.exchange_marked mark (Registers.reset_parallel (r := cpu.registers) ⟨mark, rfl⟩) bus
  refine ⟨⟨mark', ?_⟩, hbus⟩
  simp only [reset, marked, Registers.marked] at *
  rw [hregisters, hcpu]

/-- **One event is answered alike**, and leaves equal buses. -/
theorem respond_marked (cpu : Processor) (mark : Bool) (bus : β) (event : ProcessorEvent) :
    ((cpu.marked mark).respond bus event).1 = (cpu.respond bus event).1 ∧
      (cpu.respond bus event).2.1.SameButMark ((cpu.marked mark).respond bus event).2.1 ∧
      ((cpu.marked mark).respond bus event).2.2 = (cpu.respond bus event).2.2 := by
  cases event with
  | step =>
    obtain ⟨hcycles, hrest⟩ := cpu.step_marked mark bus
    exact ⟨congrArg ProcessorAnswer.spent hcycles, hrest⟩
  | nmi => exact ⟨rfl, cpu.nmi_marked mark bus⟩
  | irq =>
    obtain ⟨haccepted, hrest⟩ := cpu.requestIrq_marked mark bus
    exact ⟨congrArg ProcessorAnswer.requested haccepted, hrest⟩
  | reset => exact ⟨rfl, cpu.reset_marked mark bus⟩

/-- **The live B bit cannot be observed**: with another one a processor answers every event as before, leaves the same
bus, and ends the same but for that bit. -/
theorem break_unobservable (cpu : Processor) (mark : Bool) (bus : β) (events : List ProcessorEvent) :
    let run := cpu.run bus events
    let run' := (cpu.marked mark).run bus events
    run'.1 = run.1 ∧ (∃ mark', run'.2.1 = run.2.1.marked mark') ∧ run'.2.2 = run.2.2 := by
  induction events generalizing cpu mark bus with
  | nil => exact ⟨rfl, ⟨mark, rfl⟩, rfl⟩
  | cons event events ih =>
    obtain ⟨hanswer, ⟨mark', hcpu⟩, hbus⟩ := cpu.respond_marked mark bus event
    obtain ⟨hanswers, hlast, hleft⟩ := ih (cpu.respond bus event).2.1 mark' (cpu.respond bus event).2.2
    simp only [run, hanswer, hcpu, hbus, hanswers]
    exact ⟨trivial, hlast, hleft⟩

end Processor
end NesConsole
