import NesConsole.Proofs.Bits
import NesConsole.Proofs.FlatMemory
import NesConsole.Proofs.Processor.Opcodes
import NesConsole.Proofs.Processor.Stages
/-!
# What an instruction costs

A cycle is an access to the bus, useful or not, and that gives the documented counts (`Operation.baseCycles`): one for the
opcode, some for the address, one for the byte, and two more where a byte is replaced.  An indexed address is first formed
without a carry into its page.  Whoever writes waits for the carry in any case; whoever only reads waits if there is one,
which is the penalty for leaving the page.  `Processor.step_cycles_exact` says that a step costs just that.
-/
namespace NesConsole

/-! ## Pages and signed offsets -/

theorem differentPages_eq (a b : UInt16) : differentPages a b = (a.toNat / 0x100 != b.toNat / 0x100) := by
  have hzero (m n : Nat) : m ^^^ n = 0 ↔ m = n := by
    constructor
    · intro h
      rw [← Nat.xor_zero m, ← Nat.xor_self n, ← Nat.xor_assoc, h, Nat.zero_xor]
    · rintro rfl
      exact Nat.xor_self m
  have hpages : (a ^^^ b) &&& 0xFF00 = 0 ↔ a.toNat / 0x100 = b.toNat / 0x100 := by
    rw [← UInt16.toNat_inj, toNat_page, UInt16.toNat_xor, UInt16.toNat_zero, Nat.mul_eq_zero, or_iff_left (by decide)]
    exact Nat.xor_div_two_pow (n := 8) ▸ hzero _ _
  rw [differentPages, Bool.eq_iff_iff, bne_iff_ne, bne_iff_ne]
  exact not_congr hpages

theorem toNat_signExtend_fin :
    ∀ n : Fin 256, ((signExtend (UInt8.ofFin n)).toNat : Int) = (UInt8.ofFin n).toInt8.toInt % 0x10000 := by
  decide +kernel

theorem toNat_signExtend (b : UInt8) : ((signExtend b).toNat : Int) = b.toInt8.toInt % 0x10000 :=
  toNat_signExtend_fin b.toFin

/-! ## The documented counts -/

namespace AddressMode

/-- Cycles that pass before an operand's address is known, up to the carry into its page. -/
def addressCycles : AddressMode → Nat
  | implied | accumulator | immediate | relative => 0
  | zeroPage => 1
  | zeroPageX | zeroPageY | absolute | absoluteX | absoluteY => 2
  | indirectY => 3
  | indirectX | indirect => 4

/-- Whether an index can carry into the page of the address. -/
def carriesPage : AddressMode → Bool
  | absoluteX | absoluteY | indirectY => true
  | _ => false

end AddressMode

namespace Operation

/-- What an operation does with the byte at its operand's address. -/
inductive Use where
  | reads
  | writes
  | rewrites
  /-- Takes it for an offset, or leaves it. -/
  | branches
  | other
  deriving DecidableEq

def use : Operation → Use
  | lda | ldx | ldy | adc | sbc | and | ora | eor | bit | cmp | cpx | cpy => .reads
  | sta | stx | sty => .writes
  | inc | dec | asl | lsr | rol | ror => .rewrites
  | bcc | bcs | bpl | bmi | bne | beq | bvc | bvs => .branches
  | _ => .other

/-- The documented count of an operation in a mode, without what indexing and branching may add. -/
def baseCycles (operation : Operation) (mode : AddressMode) : Nat :=
  match operation.use with
  | .reads => 1 + mode.addressCycles + 1
  | .writes => 1 + mode.addressCycles + mode.carriesPage.toNat + 1
  | .rewrites => if mode = .accumulator then 2 else 1 + mode.addressCycles + mode.carriesPage.toNat + 3
  | .branches => 2
  | .other =>
    match operation with
    | pha | php => 3
    | pla | plp => 4
    | jmp => 1 + if mode = .indirect then mode.addressCycles else 2
    | jsr | rts | rti => 6
    | brk => 7
    | _ => 2

/-- The operations that wait for the carry of an indexed address only if there is one. -/
def paysForPages : Operation → Bool
  | lda | ldx | ldy | adc | sbc | and | ora | eor | cmp => true
  | _ => false

/-- Whether a branch is taken under these flags. -/
def branchesOn (operation : Operation) (p : Status) : Bool :=
  match operation with
  | bcc => !p.carry
  | bcs => p.carry
  | bne => !p.zero
  | beq => p.zero
  | bpl => !p.negative
  | bmi => p.negative
  | bvc => !p.overflow
  | bvs => p.overflow
  | _ => false

end Operation

theorem Instruction.decode_cycles_fin : ∀ n : Fin 256, ∀ i ∈ decode (UInt8.ofFin n),
    i.cycles = i.operation.baseCycles i.mode ∧ i.pagePenalty = (i.operation.paysForPages && i.mode.carriesPage) ∧
      (i.operation.use = .branches → i.mode = .relative) := by
  decide +kernel

/-- **The opcode matrix has the documented counts**, and marks the instructions that pay for leaving a page. -/
theorem Instruction.decode_cycles {code : UInt8} {i : Instruction} (h : decode code = some i) :
    i.cycles = i.operation.baseCycles i.mode ∧ i.pagePenalty = (i.operation.paysForPages && i.mode.carriesPage) ∧
      (i.operation.use = .branches → i.mode = .relative) :=
  decode_cycles_fin code.toFin i h

/-! ## Indexing -/

/-- Where an index that can carry into the page is added: the read of the base, and the index. -/
def AddressMode.indexing? (mode : AddressMode) (position : UInt16) (r : Registers) : Option (Exchange UInt16 × UInt8) :=
  match mode with
  | absoluteX => some (Exchange.word position, r.x)
  | absoluteY => some (Exchange.word position, r.y)
  | indirectY => some (do Exchange.pointer (← Exchange.byte position).toUInt16, r.y)
  | _ => none

/-- Whether the sum of base and index, taken modulo 64 KiB, lies in another page than the base. -/
def leavesPage (base : UInt16) (index : UInt8) : Bool :=
  (base.toNat + index.toNat) % 0x10000 / 0x100 != base.toNat / 0x100

theorem pageCrossed_indexed (base : UInt16) (index : UInt8) :
    (Operand.indexed base index).pageCrossed = leavesPage base index := by
  show differentPages base (base + index.toUInt16) = _
  rw [differentPages_eq, UInt16.toNat_add, UInt8.toNat_toUInt16, leavesPage, bne_comm]

section

variable {β : Type} [Bus β]

theorem AddressMode.resolve_pageCrossed (mode : AddressMode) (position : UInt16) (r : Registers) (bus : β) :
    ((mode.resolve position r).perform bus).1.pageCrossed =
      (mode.indexing? position r).elim false fun (base, index) => leavesPage (base.perform bus).1 index := by
  cases mode with
  | absoluteX | absoluteY | indirectY => exact pageCrossed_indexed _ _
  | _ => rfl

namespace Operation

/-! ## Branching -/

theorem execute_branch {operation : Operation} (h : operation.use = .branches) (operand : Operand) (r : Registers) :
    operation.execute operand r = branching operand r (operation.branchesOn r.p) := by
  cases operation <;> first | rfl | cases h

theorem branchesOn_of_use {operation : Operation} (h : operation.use ≠ .branches) (p : Status) :
    operation.branchesOn p = false := by
  cases operation <;> first | rfl | exact absurd rfl h

theorem paysForPages_of_use {operation : Operation} (h : operation.use ≠ .reads) : operation.paysForPages = false := by
  cases operation <;> first | rfl | exact absurd rfl h

theorem branchCycles_of_use {operation : Operation} (h : operation.use ≠ .branches) : operation.branchCycles = 0 := by
  cases operation <;> first | rfl | exact absurd rfl h

end Operation

namespace Processor

/-- Whether the instruction at the program counter, in this mode, finds its byte in another page than the base address it
is indexed from. -/
def indexLeavesPage (cpu : Processor) (bus : β) (mode : AddressMode) : Bool :=
  (mode.indexing? (cpu.registers.pc + 1) cpu.registers).elim false fun (base, index) =>
    leavesPage (base.perform (cpu.opened bus)).1 index

/-- The address of the instruction that follows a branch. -/
def branchOrigin (cpu : Processor) : Nat := (cpu.registers.pc.toNat + 2) % 0x10000

/-- Where a branch goes: as far from the instruction that follows as its signed offset says. -/
def branchTarget (cpu : Processor) (bus : β) : Int :=
  (cpu.branchOrigin + (Bus.read (cpu.opened bus) (cpu.registers.pc + 1)).1.toInt8.toInt) % 0x10000

/-- The cycles that a branch adds: none if it is not taken, and else one or, to another page, two. -/
def branchingCycles (cpu : Processor) (bus : β) (operation : Operation) : Nat :=
  if operation.branchesOn cpu.registers.p = true then
    if cpu.branchTarget bus / 0x100 = cpu.branchOrigin / 0x100 then 1 else 2
  else 0

theorem toNat_past_branch (cpu : Processor) : (cpu.registers.past .relative).pc.toNat = cpu.branchOrigin := by
  show (cpu.registers.pc + 2).toNat = _
  rw [UInt16.toNat_add]
  rfl

/-- The extra cycles of a taken branch, as the page of its target gives them. -/
theorem extraCycles_taken (cpu : Processor) (bus : β) :
    let origin := (cpu.registers.past .relative).pc
    let offset := (Bus.read (cpu.opened bus) (cpu.registers.pc + 1)).1
    (if differentPages origin (origin + signExtend offset) = true then 2 else 1) =
      if cpu.branchTarget bus / 0x100 = cpu.branchOrigin / 0x100 then 1 else 2 := by
  intro origin offset
  have horigin : origin.toNat = cpu.branchOrigin := cpu.toNat_past_branch
  have hoffset : ((signExtend offset).toNat : Int) = offset.toInt8.toInt % 0x10000 := toNat_signExtend offset
  have htarget : ((origin + signExtend offset).toNat : Int) = cpu.branchTarget bus := by
    show _ = (cpu.branchOrigin + offset.toInt8.toInt) % 0x10000
    rw [UInt16.toNat_add, horigin]
    omega
  simp only [differentPages_eq, bne_iff_ne, horigin]
  split <;> split <;> omega

/-- No operation adds more cycles than it may. -/
theorem extraCycles_le {cpu : Processor} {bus : β} {operation : Operation} {mode : AddressMode} {effect : Effect}
    (h : ((cpu.operating bus operation mode).perform (cpu.resolved bus mode).2).1 = some effect) :
    effect.extraCycles ≤ operation.branchCycles := by
  have hregular := (operation.execute_form (cpu.resolved bus mode).1 (cpu.registers.past mode)).regular.perform
    (cpu.resolved bus mode).2
  exact (h ▸ hregular).extra

theorem extraCycles_eq {cpu : Processor} {bus : β} {operation : Operation} {mode : AddressMode}
    (hmode : operation.use = .branches → mode = .relative) {effect : Effect}
    (h : ((cpu.operating bus operation mode).perform (cpu.resolved bus mode).2).1 = some effect) :
    effect.extraCycles = cpu.branchingCycles bus operation := by
  unfold branchingCycles
  by_cases huse : operation.use = .branches
  · obtain rfl := hmode huse
    have hbranching : ((Operation.branching (cpu.resolved bus .relative).1 (cpu.registers.past .relative)
        (operation.branchesOn cpu.registers.p)).perform (cpu.resolved bus .relative).2).1 = some effect := by
      rw [← h, operating, Operation.execute_branch huse]
      rfl
    cases htaken : operation.branchesOn cpu.registers.p with
    | false =>
      rw [htaken] at hbranching
      cases hbranching
      rfl
    | true =>
      rw [htaken] at hbranching
      cases hbranching
      exact cpu.extraCycles_taken bus
  · have hextra := extraCycles_le h
    rw [Operation.branchCycles_of_use huse] at hextra
    rw [Operation.branchesOn_of_use huse, if_neg Bool.false_ne_true]
    exact Nat.le_zero.1 hextra

/-- Only a mode that can carry into the page leaves it. -/
theorem carriesPage_of_indexLeavesPage {cpu : Processor} {bus : β} {mode : AddressMode}
    (h : cpu.indexLeavesPage bus mode = true) : mode.carriesPage = true := by
  unfold indexLeavesPage at h
  cases mode with
  | absoluteX | absoluteY | indirectY => rfl
  | _ => exact absurd h Bool.false_ne_true

/-- **A step costs the documented count of its opcode, exactly**: one more if it is one of the operations that only read
and its index leaves the page, for a taken branch one more, or two to another page, and nothing else. -/
theorem step_cycles_exact (cpu : Processor) (bus : β) {operation : Operation} {mode : AddressMode}
    (h : operation.opcode? mode = some (cpu.opcode bus)) :
    (cpu.step bus).1 =
        operation.baseCycles mode + (operation.paysForPages && cpu.indexLeavesPage bus mode).toNat +
          cpu.branchingCycles bus operation ∧
      (operation.use = .writes ∨ operation.use = .rewrites ∨
          (operation.use = .branches ∧ operation.branchesOn cpu.registers.p = false) →
        (cpu.step bus).1 = operation.baseCycles mode) ∧
      2 ≤ (cpu.step bus).1 ∧ (cpu.step bus).1 ≤ 7 := by
  obtain ⟨i, hdecode, rfl, rfl⟩ := Instruction.decode_iff.2 h
  obtain ⟨hbase, hpenalty, hmode⟩ := Instruction.decode_cycles hdecode
  obtain ⟨effect, heffect, hcycles, -⟩ := step_executes hdecode
  have hcrossed : (cpu.resolved bus i.mode).1.pageCrossed = cpu.indexLeavesPage bus i.mode :=
    i.mode.resolve_pageCrossed _ _ _
  have hpenalized : (i.pagePenalty && cpu.indexLeavesPage bus i.mode) =
      (i.operation.paysForPages && cpu.indexLeavesPage bus i.mode) := by
    cases hleaves : cpu.indexLeavesPage bus i.mode with
    | false => rw [Bool.and_false, Bool.and_false]
    | true => rw [hpenalty, carriesPage_of_indexLeavesPage hleaves, Bool.and_true]
  have hexact : (cpu.step bus).1 = i.operation.baseCycles i.mode +
      (i.operation.paysForPages && cpu.indexLeavesPage bus i.mode).toNat + cpu.branchingCycles bus i.operation := by
    rw [hcycles, Instruction.totalCycles, extraCycles_eq hmode heffect, hcrossed, hpenalized, hbase,
      Nat.add_right_comm]
  refine ⟨hexact, fun huse => ?_, ?_⟩
  · have hpays : i.operation.paysForPages = false := Operation.paysForPages_of_use (by grind)
    have htaken : i.operation.branchesOn cpu.registers.p = false := by
      obtain huse | huse | ⟨-, huntaken⟩ := huse
      · exact Operation.branchesOn_of_use (huse ▸ nofun) _
      · exact Operation.branchesOn_of_use (huse ▸ nofun) _
      · exact huntaken
    rw [hexact, hpays, branchingCycles, htaken]
    rfl
  · rw [hcycles]
    exact Instruction.totalCycles_bounds hdecode (extraCycles_le heffect) _

/-- A wrap from `$FFFF` to `$0000` leaves the page as any other carry does. -/
theorem step_cycles_exact_wraps :
    let memory := ({} : FlatMemory).load 0 [0xBD, 0xFF, 0xFF]
    let cpu := starting { x := 1 }
    Operation.lda.opcode? .absoluteX = some (cpu.opcode memory) ∧ (cpu.step memory).1 = 5 := by
  intro memory cpu
  have hget (address : UInt16) : memory.get address = [0xBD, 0xFF, 0xFF][(address - 0).toNat]?.getD 0 := by
    rw [FlatMemory.get_load _ _ (by decide), FlatMemory.get_empty]
  have hopcode : cpu.opcode memory = 0xBD := hget 0
  have hdocumented : Operation.lda.opcode? .absoluteX = some (cpu.opcode memory) := by
    rw [hopcode]
    decide
  have hleaves : cpu.indexLeavesPage memory .absoluteX = true := by
    show leavesPage ((memory.get 2).toUInt16 <<< 8 ||| (memory.get 1).toUInt16) 1 = true
    rw [hget, hget]
    decide
  refine ⟨hdocumented, ?_⟩
  rw [(step_cycles_exact cpu memory hdocumented).1, hleaves]
  rfl

end Processor
end
end NesConsole
