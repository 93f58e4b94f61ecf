import NesConsole.Proofs.Processor.Addressing
import NesConsole.Proofs.Processor.Cycles
import NesConsole.Proofs.Processor.StackPage
/-!
# The footprint of an instruction

Which cells of flat memory an instruction touches, and in which order, is told by its operation and its mode: the cells its
address is made from, and then what the operation does with its byte or with the stack (`Operation.touches`).  What is
not written there is not written at all, and the address comes round where it should (`Processor.footprint`).
-/
namespace NesConsole

/-! ## Writes to flat memory -/

def Touch.isWrite : Touch → Bool
  | .reads _ => false
  | .writes _ => true

namespace FlatMemory

variable {α : Type}

/-- **Cells that an exchange does not write keep their bytes.** -/
theorem get_perform (e : Exchange α) (memory : FlatMemory) {address : UInt16}
    (h : .writes address.toNat ∉ (e.accesses memory).map Access.touch) :
    (e.perform memory).2.get address = memory.get address := by
  induction e generalizing memory with
  | done => rfl
  | read _ next ih => exact ih _ _ fun hmem => h (List.mem_cons_of_mem _ hmem)
  | write address' value next ih =>
    have hother : address ≠ address' := fun heq => h (heq ▸ List.mem_cons_self)
    refine (ih _ fun hmem => h (List.mem_cons_of_mem _ hmem)).trans ?_
    rw [memory.get_write, if_neg hother]

theorem writes_perform (e : Exchange α) (memory : FlatMemory) :
    (e.perform memory).2.writes = memory.writes + ((e.accesses memory).map Access.touch).countP Touch.isWrite := by
  induction e generalizing memory with
  | done => rfl
  | read _ next ih => exact ih _ _
  | write address value next ih =>
    have hcounted : ((Exchange.write address value next).accesses memory |>.map Access.touch).countP Touch.isWrite =
        ((next.accesses (Bus.write memory address value)).map Access.touch).countP Touch.isWrite + 1 :=
      List.countP_cons_of_pos rfl
    have hwrites : (Bus.write memory address value).writes = memory.writes + 1 := rfl
    rw [hcounted, Nat.add_comm _ 1, ← Nat.add_assoc, ← hwrites]
    exact ih _

end FlatMemory

/-! ## What operations touch -/

/-- A cell of the stack page, as far from the one that S names. -/
def stackCell (s : UInt8) (distance : Int) : Nat := 0x100 + ((s.toNat + distance) % 0x100).toNat

namespace Operation

/-- What an operation touches once its address is known. -/
def touches (operation : Operation) (effective : Option Nat) (r : Registers) : List Touch :=
  match operation.use with
  | .reads => effective.toList.map .reads
  | .writes => effective.toList.map .writes
  | .rewrites => effective.toList.flatMap fun cell => [.reads cell, .writes cell]
  | .branches => if operation.branchesOn r.p = true then effective.toList.map .reads else []
  | .other =>
    match operation with
    | pha | php => [.writes (stackCell r.s 0)]
    | pla | plp => [.reads (stackCell r.s 1)]
    | jsr => [.writes (stackCell r.s 0), .writes (stackCell r.s (-1))]
    | rts => [.reads (stackCell r.s 1), .reads (stackCell r.s 2)]
    | rti => [.reads (stackCell r.s 1), .reads (stackCell r.s 2), .reads (stackCell r.s 3)]
    | brk =>
      [.writes (stackCell r.s 0), .writes (stackCell r.s (-1)), .writes (stackCell r.s (-2)), .reads 0xFFFE,
        .reads 0xFFFF]
    | _ => []

end Operation

theorem toNat_stackCell (s : UInt8) : (Registers.stackPage + s.toUInt16).toNat = stackCell s 0 := by
  have hlt : s.toNat < 0x100 := s.toNat_lt
  rw [toNat_stackPage, stackCell]
  omega

theorem stackCell_pulled (s : UInt8) (distance : Int) : stackCell (s + 1) distance = stackCell s (1 + distance) := by
  have hnext : (s + 1).toNat = (s.toNat + 1) % 0x100 := UInt8.toNat_add s 1
  unfold stackCell
  omega

theorem stackCell_pushed (s : UInt8) (distance : Int) : stackCell (s - 1) distance = stackCell s (-1 + distance) := by
  have hnext : (s - 1).toNat = (0xFF + s.toNat) % 0x100 := UInt8.toNat_sub s 1
  unfold stackCell
  omega

namespace Operation

variable (operand : Operand) (r : Registers) (memory : FlatMemory)

theorem touches_reading (change : UInt8 → Registers) :
    ((reading operand change).accesses memory).map Access.touch =
      (operand.address.map UInt16.toNat).toList.map .reads := by
  unfold reading
  cases operand.address <;> rfl

theorem touches_storing (value : UInt8) :
    ((storing operand r value).accesses memory).map Access.touch =
      (operand.address.map UInt16.toNat).toList.map .writes := by
  unfold storing
  cases operand.address <;> rfl

theorem touches_replacing (change : UInt8 → UInt8) :
    ((replacing operand r change).accesses memory).map Access.touch =
      (operand.address.map UInt16.toNat).toList.flatMap fun cell => [.reads cell, .writes cell] := by
  unfold replacing
  cases operand.address <;> rfl

theorem touches_shifting (shift : UInt8 → Bool → UInt8 × Bool) :
    ((shifting operand r shift).accesses memory).map Access.touch =
      (operand.address.map UInt16.toNat).toList.flatMap fun cell => [.reads cell, .writes cell] := by
  unfold shifting
  cases operand.address <;> rfl

theorem touches_branching (taken : Bool) :
    ((branching operand r taken).accesses memory).map Access.touch =
      if taken = true then (operand.address.map UInt16.toNat).toList.map .reads else [] := by
  unfold branching
  cases taken <;> cases operand.address <;> rfl

/-- **An operation that has its address touches what it should.** -/
theorem execute_touches (operation : Operation)
    (h : operation.needsAddress = true → operand.address.isSome = true) :
    ((operation.execute operand r).accesses memory).map Access.touch =
      operation.touches (operand.address.map UInt16.toNat) r := by
  cases operation with
  | lda | ldx | ldy | adc | sbc | and | ora | eor | bit | cmp | cpx | cpy => exact touches_reading operand memory _
  | sta | stx | sty => exact touches_storing operand r memory _
  | inc | dec => exact touches_replacing operand r memory _
  | asl => exact touches_shifting operand r memory shiftLeft
  | lsr => exact touches_shifting operand r memory shiftRight
  | rol => exact touches_shifting operand r memory rotateLeft
  | ror => exact touches_shifting operand r memory rotateRight
  | bcc | bcs | bpl | bmi | bne | beq | bvc | bvs => exact touches_branching operand r memory _
  | tax | tay | tsx | txa | tya | txs | inx | iny | dex | dey | clc | cld | cli | clv | sec | sed | sei | nop => rfl
  | jmp =>
    unfold execute
    cases operand.address <;> rfl
  | pha | php => exact congrArg (fun cell => [Touch.writes cell]) (toNat_stackCell r.s)
  | pla | plp =>
    show [Touch.reads (Registers.stackPage + (r.s + 1).toUInt16).toNat] = _
    rw [toNat_stackCell, stackCell_pulled]
    rfl
  | jsr =>
    obtain ⟨address, haddress⟩ := Option.isSome_iff_exists.1 (h rfl)
    unfold execute
    rw [haddress]
    show [Touch.writes (Registers.stackPage + r.s.toUInt16).toNat,
      .writes (Registers.stackPage + (r.s - 1).toUInt16).toNat] = _
    rw [toNat_stackCell, toNat_stackCell, stackCell_pushed]
    rfl
  | rts =>
    show [Touch.reads (Registers.stackPage + (r.s + 1).toUInt16).toNat,
      .reads (Registers.stackPage + (r.s + 1 + 1).toUInt16).toNat] = _
    simp only [toNat_stackCell, stackCell_pulled]
    rfl
  | rti =>
    show [Touch.reads (Registers.stackPage + (r.s + 1).toUInt16).toNat,
      .reads (Registers.stackPage + (r.s + 1 + 1).toUInt16).toNat,
      .reads (Registers.stackPage + (r.s + 1 + 1 + 1).toUInt16).toNat] = _
    simp only [toNat_stackCell, stackCell_pulled]
    rfl
  | brk =>
    show [Touch.writes (Registers.stackPage + r.s.toUInt16).toNat,
      .writes (Registers.stackPage + (r.s - 1).toUInt16).toNat,
      .writes (Registers.stackPage + (r.s - 1 - 1).toUInt16).toNat, .reads 0xFFFE, .reads 0xFFFF] = _
    simp only [toNat_stackCell, stackCell_pushed]
    rfl

end Operation

/-! ## Where addresses come round -/

namespace AddressMode

/-- The index that is added to the base. -/
def index? (mode : AddressMode) (r : Registers) : Option UInt8 :=
  match mode with
  | absoluteX => some r.x
  | absoluteY | indirectY => some r.y
  | _ => none

variable {mode : AddressMode} (memory : FlatMemory) (r : Registers)

/-- A single operand byte is in page 0, and what is added to it stays there. -/
theorem effective_inZeroPage (h : mode = .zeroPage ∨ mode = .zeroPageX ∨ mode = .zeroPageY) :
    ∃ cell < 0x100, mode.effective? memory r = some cell := by
  have hbyte : memory.number [(r.pc + 1).toNat] < 0x100 := by
    rw [memory.number_one]
    exact (memory.get _).toNat_lt
  obtain rfl | rfl | rfl := h
  · exact ⟨_, hbyte, rfl⟩
  · exact ⟨_, Nat.mod_lt _ (by decide), rfl⟩
  · exact ⟨_, Nat.mod_lt _ (by decide), rfl⟩

theorem pointer_inZeroPage (h : mode = .indirectX ∨ mode = .indirectY) :
    ∃ cell, mode.pointer? memory r = some cell ∧ ∀ part ∈ pointerCells cell, part < 0x100 := by
  have hparts {cell : Nat} (hcell : cell < 0x100) : ∀ part ∈ pointerCells cell, part < 0x100 := by
    intro part hpart
    simp only [pointerCells, List.mem_cons, List.not_mem_nil, or_false] at hpart
    omega
  obtain rfl | rfl := h
  · exact ⟨_, rfl, hparts (Nat.mod_lt _ (by decide))⟩
  · refine ⟨_, rfl, hparts ?_⟩
    show memory.number [(r.pc + 1).toNat] < 0x100
    rw [memory.number_one]
    exact (memory.get _).toNat_lt

theorem pointer_inPage (cell : Nat) : ∀ part ∈ pointerCells cell, part / 0x100 = cell / 0x100 := by
  intro part hpart
  simp only [pointerCells, List.mem_cons, List.not_mem_nil, or_false] at hpart
  omega

theorem effective_indexed {index : UInt8} (h : mode.index? r = some index) :
    mode.effective? memory r = some ((mode.base memory r + index.toNat) % 0x10000) := by
  cases mode <;> cases h <;> rfl

end AddressMode

/-! ## Steps -/

namespace Processor

/-- The cells the step to come touches, in their order. -/
def touches (cpu : Processor) (memory : FlatMemory) : List Touch := (cpu.accesses memory).map Access.touch

/-- What a step does to memory, and where its addresses come round. -/
structure Footprint (cpu : Processor) (memory : FlatMemory) : Prop where
  /-- A cell that is not written keeps its byte. -/
  kept : ∀ address : UInt16, .writes address.toNat ∉ cpu.touches memory →
    (cpu.step memory).2.2.get address = memory.get address
  counted : (cpu.step memory).2.2.writes = memory.writes + (cpu.touches memory).countP Touch.isWrite
  unmapped : Instruction.decode (cpu.opcode memory) = none → cpu.touches memory = [.reads cpu.registers.pc.toNat]
  mapped : ∀ (operation : Operation) (mode : AddressMode), operation.opcode? mode = some (cpu.opcode memory) →
    cpu.touches memory = .reads cpu.registers.pc.toNat ::
      ((mode.cells memory cpu.registers).map .reads ++
        operation.touches (mode.effective? memory cpu.registers) cpu.registers)
  located : ∀ mode : AddressMode, mode.hasOperand = true → (mode.effective? memory cpu.registers).isSome = true
  inZeroPage : ∀ mode : AddressMode, mode = .zeroPage ∨ mode = .zeroPageX ∨ mode = .zeroPageY →
    ∃ cell < 0x100, mode.effective? memory cpu.registers = some cell
  pointer : ∀ mode : AddressMode, mode = .indirectX ∨ mode = .indirectY →
    ∃ cell, mode.pointer? memory cpu.registers = some cell ∧
      ∀ part ∈ pointerCells cell, part < 0x100
  jump : ∃ cell, AddressMode.indirect.pointer? memory cpu.registers = some cell ∧
    ∀ part ∈ pointerCells cell, part / 0x100 = cell / 0x100
  indexed : ∀ (mode : AddressMode) (index : UInt8), mode.index? cpu.registers = some index →
    mode.effective? memory cpu.registers =
      some ((mode.base memory cpu.registers + index.toNat) % 0x10000)

theorem touches_unmapped {cpu : Processor} {memory : FlatMemory}
    (h : Instruction.decode (cpu.opcode memory) = none) : cpu.touches memory = [.reads cpu.registers.pc.toNat] := by
  rw [touches, accesses_unmapped h]
  rfl

theorem touches_mapped {cpu : Processor} {memory : FlatMemory} {operation : Operation} {mode : AddressMode}
    (h : operation.opcode? mode = some (cpu.opcode memory)) :
    cpu.touches memory = .reads cpu.registers.pc.toNat ::
      ((mode.cells memory cpu.registers).map .reads ++
        operation.touches (mode.effective? memory cpu.registers) cpu.registers) := by
  obtain ⟨i, hdecode, rfl, rfl⟩ := Instruction.decode_iff.2 h
  obtain ⟨haddress, -⟩ := cpu.resolved_flat memory i.mode
  obtain ⟨reads, hopened⟩ := cpu.opened_flat memory
  have hcells := i.mode.resolve_touches cpu.registers (cpu.opened memory)
  have hneeds : i.operation.needsAddress = true → (cpu.resolved memory i.mode).1.address.isSome = true := fun h =>
    (i.mode.resolve_address _ _).perform (cpu.opened memory) ((Instruction.decode_regular hdecode).1 h)
  have hoperation := Operation.execute_touches _ (cpu.registers.past i.mode) (cpu.resolved memory i.mode).2 _ hneeds
  rw [touches, accesses_mapped hdecode, List.map_cons, List.map_append, hcells, hopened]
  unfold operating
  rw [hoperation, haddress]
  rfl

/-- **The footprint of a step on flat memory**: what is written is what the operation writes, each cell once, and nothing
else is; zero-page operands and their pointers stay in page 0, the target of an indirect jump is read from one page, and
an index comes round at the top of memory. -/
theorem footprint (cpu : Processor) (memory : FlatMemory) : cpu.Footprint memory where
  kept address h := by
    obtain ⟨reads, hlisted⟩ := cpu.listed_flat memory
    have hkept := FlatMemory.get_perform cpu.registers.instruction (cpu.listed memory) h
    rw [step_performed]
    exact hkept.trans (hlisted ▸ rfl)
  counted := by
    obtain ⟨reads, hlisted⟩ := cpu.listed_flat memory
    have hcounted := FlatMemory.writes_perform cpu.registers.instruction (cpu.listed memory)
    have hlisting : (cpu.listed memory).writes = memory.writes := hlisted ▸ rfl
    rw [step_performed, ← hlisting]
    exact hcounted
  unmapped := touches_unmapped
  mapped _ _ := touches_mapped
  located mode h := by cases mode <;> first | rfl | cases h
  inZeroPage _ := AddressMode.effective_inZeroPage _ _
  pointer _ := AddressMode.pointer_inZeroPage _ _
  jump := ⟨_, rfl, AddressMode.pointer_inPage _⟩
  indexed _ _ := AddressMode.effective_indexed _ _

end Processor
end NesConsole
