import NesConsole.Proofs.Accesses
/-!
# The forms of operations

The 56 operations have thirteen forms (`Operation.execute_form`): they differ in how they use their operand and the stack,
and not in what they compute.  What depends only on the form is proved form by form.  Here that is what an operation can
end in; with the opcode matrix it bounds the cycles of an instruction (`Registers.instruction_regular`), and says that
no opcode is without the operand its operation needs.
-/
namespace NesConsole
namespace Operation

/-- The operations that cannot do without an address, although a branch looks for it only when it is taken. -/
def needsAddress : Operation → Bool
  | lda | ldx | ldy | sta | stx | sty | adc | sbc | and | ora | eor | inc | dec | bit | cmp | cpx | cpy | jmp | jsr
  | bcc | bcs | bpl | bmi | bne | beq | bvc | bvs => true
  | _ => false

/-- The most cycles an operation can cost on top of the table's count. -/
def branchCycles : Operation → Nat
  | bcc | bcs | bpl | bmi | bne | beq | bvc | bvs => 2
  | _ => 0

inductive Form (operation : Operation) (operand : Operand) (r : Registers) : Exchange (Option Effect) → Prop where
  | reading (change : UInt8 → Registers) (h : operation.needsAddress = true) : Form operation operand r
      (reading operand change)
  | storing (value : UInt8) (h : operation.needsAddress = true) : Form operation operand r (storing operand r value)
  | replacing (change : UInt8 → UInt8) (h : operation.needsAddress = true) : Form operation operand r
      (replacing operand r change)
  | shifting (shift : UInt8 → Bool → UInt8 × Bool) : Form operation operand r (shifting operand r shift)
  | branching (taken : Bool) (h : operation.needsAddress = true) (hc : operation.branchCycles = 2) :
      Form operation operand r (branching operand r taken)
  | jumping (h : operation.needsAddress = true) : Form operation operand r
      (match operand.address with
        | none => return none
        | some address => internal { r with pc := address })
  | calling (h : operation.needsAddress = true) : Form operation operand r
      (match operand.address with
        | none => return none
        | some address => do
          let r ← r.pushWord (r.pc - 1)
          internal { r with pc := address })
  | internal (r' : Registers) : Form operation operand r (internal r')
  | pushing (value : UInt8) : Form operation operand r (do return some { registers := ← r.push value })
  | pulling (change : UInt8 → Registers → Registers) : Form operation operand r
      (do let (value, r) ← r.pull
          internal (change value r))
  | returning : Form operation operand r
      (do let (address, r) ← r.pullWord
          internal { r with pc := address + 1 })
  | resuming : Form operation operand r
      (do let (value, r) ← r.pull
          let (address, r) ← { r with p := .pulled value }.pullWord
          internal { r with pc := address })
  | breaking : Form operation operand r (do return some { registers := ← Interrupt.brk.enter (r.pc + 1) r })

/-- **Every operation has one of the forms.** -/
theorem execute_form (operation : Operation) (operand : Operand) (r : Registers) :
    Form operation operand r (operation.execute operand r) := by
  cases operation with
  | lda | ldx | ldy | adc | sbc | and | ora | eor | bit | cmp | cpx | cpy => exact .reading _ rfl
  | sta | stx | sty => exact .storing _ rfl
  | inc | dec => exact .replacing _ rfl
  | asl => exact .shifting shiftLeft
  | lsr => exact .shifting shiftRight
  | rol => exact .shifting rotateLeft
  | ror => exact .shifting rotateRight
  | bcc | bcs | bpl | bmi | bne | beq | bvc | bvs => exact .branching _ rfl rfl
  | jmp => exact .jumping rfl
  | jsr => exact .calling rfl
  | tax | tay | tsx | txa | tya | txs | inx | iny | dex | dey | clc | cld | cli | clv | sec | sed | sei | nop =>
    exact .internal _
  | pha | php => exact .pushing _
  | pla => exact .pulling fun value r => r.setA value
  | plp => exact .pulling fun value r => { r with p := .pulled value }
  | rts => exact .returning
  | rti => exact .resuming
  | brk => exact .breaking

/-! ## What an operation can end in -/

/-- Only branches cost extra cycles, and only an operation without the address it needs leaves nothing behind. -/
structure Regular (operation : Operation) (operand : Operand) (effect : Option Effect) : Prop where
  extra : effect.elim 0 Effect.extraCycles ≤ operation.branchCycles
  isSome : (operation.needsAddress = true → operand.address.isSome = true) → effect.isSome = true

namespace Form

variable {operation : Operation} {operand : Operand} {r : Registers}

theorem regular_none (h : operation.needsAddress = true) (ha : operand.address = none) :
    Regular operation operand none where
  extra := Nat.zero_le _
  isSome hneeds := by
    have := hneeds h
    simp [ha] at this

theorem regular_some (operation : Operation) (operand : Operand) (r : Registers) :
    Regular operation operand (some { registers := r }) :=
  ⟨Nat.zero_le _, fun _ => rfl⟩

/-- **An operation of any form ends regularly.** -/
theorem regular {e : Exchange (Option Effect)} (h : Form operation operand r e) :
    e.Ends (Regular operation operand) := by
  cases h with
  | reading change h =>
    unfold Operation.reading
    cases ha : operand.address with
    | none => exact regular_none h ha
    | some address =>
      intro value
      exact regular_some _ _ _
  | storing value h =>
    unfold Operation.storing
    cases ha : operand.address with
    | none => exact regular_none h ha
    | some address => exact regular_some _ _ _
  | replacing change h =>
    unfold Operation.replacing
    cases ha : operand.address with
    | none => exact regular_none h ha
    | some address =>
      intro value
      exact regular_some _ _ _
  | shifting shift =>
    unfold Operation.shifting
    cases operand.address with
    | none => exact regular_some _ _ _
    | some address =>
      intro value
      exact regular_some _ _ _
  | branching taken h hc =>
    unfold Operation.branching
    cases taken with
    | false => exact regular_some _ _ _
    | true =>
      cases ha : operand.address with
      | none => exact regular_none h ha
      | some address =>
        intro offset
        refine ⟨?_, fun _ => rfl⟩
        rw [hc]
        simp only [Option.elim_some]
        split <;> decide
  | jumping h =>
    cases ha : operand.address with
    | none => exact regular_none h ha
    | some address => exact regular_some _ _ _
  | calling h =>
    cases ha : operand.address with
    | none => exact regular_none h ha
    | some address => exact Exchange.ends_bind _ fun _ => regular_some _ _ _
  | internal r' => exact regular_some _ _ _
  | pushing value => exact Exchange.ends_bind _ fun _ => regular_some _ _ _
  | pulling change => exact Exchange.ends_bind _ fun _ => regular_some _ _ _
  | returning => exact Exchange.ends_bind _ fun _ => regular_some _ _ _
  | resuming => exact Exchange.ends_bind _ fun _ => Exchange.ends_bind _ fun _ => regular_some _ _ _
  | breaking => exact Exchange.ends_bind _ fun _ => regular_some _ _ _

end Form
end Operation

/-! ## Instructions -/

/-- A mode with operand bytes ends in an address. -/
theorem AddressMode.resolve_address (mode : AddressMode) (position : UInt16) (r : Registers) :
    (mode.resolve position r).Ends fun operand => mode.hasOperand = true → operand.address.isSome = true := by
  cases mode with
  | implied | accumulator => exact fun h => absurd h (by decide)
  | immediate | relative => exact fun _ => rfl
  | zeroPage | zeroPageX | zeroPageY => exact fun _ _ => rfl
  | absolute | absoluteX | absoluteY => exact fun _ _ _ => rfl
  | indirect => exact fun _ _ _ _ _ => rfl
  | indirectX | indirectY => exact fun _ _ _ _ => rfl

namespace Instruction

theorem decode_regular_fin : ∀ n : Fin 256, ∀ i ∈ decode (UInt8.ofFin n),
    (i.operation.needsAddress = true → i.mode.hasOperand = true) ∧ 2 ≤ i.cycles ∧
      i.cycles + i.operation.branchCycles + i.pagePenalty.toNat ≤ 7 := by decide +kernel

/-- **The opcode matrix is regular**: an operation that needs an address comes with a mode that has one, and no
instruction takes less than two cycles or, with everything on top, more than seven. -/
theorem decode_regular {code : UInt8} {i : Instruction} (h : decode code = some i) :
    (i.operation.needsAddress = true → i.mode.hasOperand = true) ∧ 2 ≤ i.cycles ∧
      i.cycles + i.operation.branchCycles + i.pagePenalty.toNat ≤ 7 :=
  decode_regular_fin code.toFin i h

theorem totalCycles_bounds {code : UInt8} {i : Instruction} (h : decode code = some i) {extra : Nat}
    (hextra : extra ≤ i.operation.branchCycles) (pageCrossed : Bool) :
    2 ≤ i.totalCycles extra pageCrossed ∧ i.totalCycles extra pageCrossed ≤ 7 := by
  obtain ⟨-, hleast, hmost⟩ := decode_regular h
  have hpage : (i.pagePenalty && pageCrossed).toNat ≤ i.pagePenalty.toNat := by
    cases i.pagePenalty <;> cases pageCrossed <;> decide
  unfold totalCycles
  omega

end Instruction

/-- What an opcode can lead to: nothing, if it is unmapped, and otherwise its instruction, executed with its operand in
two to seven cycles. -/
def Fetched.Regular (code : UInt8) : Fetched → Prop
  | .unmapped code' => code' = code ∧ Instruction.decode code = none
  | .executed i _ effect pageCrossed =>
    let cycles := i.totalCycles (effect.elim 0 Effect.extraCycles) pageCrossed
    Instruction.decode code = some i ∧ effect.isSome = true ∧ 2 ≤ cycles ∧ cycles ≤ 7

def Registers.decoded (r : Registers) (code : UInt8) : Exchange Fetched :=
  match Instruction.decode code with
  | none => return .unmapped code
  | some i => do
    let operand ← i.mode.resolve (r.pc + 1) r
    let behind := { r with pc := r.pc + UInt16.ofNat i.size }
    return .executed i behind (← i.operation.execute operand behind) operand.pageCrossed

theorem Registers.instruction_eq (r : Registers) : r.instruction = Exchange.byte r.pc >>= r.decoded := rfl

/-- **An instruction never lacks its operand**, and takes two to seven cycles. -/
theorem Registers.decoded_regular (r : Registers) (code : UInt8) : (r.decoded code).Ends (Fetched.Regular code) := by
  unfold Registers.decoded
  cases hi : Instruction.decode code with
  | none => exact ⟨rfl, hi⟩
  | some i =>
    have haddress := i.mode.resolve_address (r.pc + 1) r
    refine haddress.bind fun operand ha => ?_
    have heffect := (i.operation.execute_form operand { r with pc := r.pc + UInt16.ofNat i.size }).regular
    refine heffect.bind fun effect he => ?_
    have hsome : effect.isSome = true := he.isSome fun hneeds => ha ((Instruction.decode_regular hi).1 hneeds)
    exact ⟨hi, hsome, Instruction.totalCycles_bounds hi he.extra operand.pageCrossed⟩

namespace Processor

variable {β : Type} [Bus β]

def opcode (cpu : Processor) (bus : β) : UInt8 :=
  (Bus.read (cpu.listed bus) cpu.registers.pc).1

theorem fetched_regular (cpu : Processor) (bus : β) : (cpu.fetched bus).1.Regular (cpu.opcode bus) := by
  unfold fetched
  rw [Registers.instruction_eq, Exchange.perform_seq]
  exact (cpu.registers.decoded_regular _).perform _

/-- **A step takes two to seven cycles, or none when it pauses the processor.** -/
theorem step_cycles (cpu : Processor) (bus : β) :
    (cpu.step bus).1 ≤ 7 ∧ (2 ≤ (cpu.step bus).1 ∨ (cpu.step bus).2.1.paused = true) := by
  have h := cpu.fetched_regular bus
  rw [step_performed]
  generalize (cpu.fetched bus).1 = fetched at h ⊢
  cases fetched with
  | unmapped code => exact ⟨Nat.zero_le _, .inr rfl⟩
  | executed i behind effect pageCrossed =>
    obtain ⟨-, -, hleast, hmost⟩ := h
    exact ⟨hmost, .inl hleast⟩

end Processor
end NesConsole
