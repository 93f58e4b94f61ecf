import NesConsole.Proofs.FlatMemory
import NesConsole.Proofs.MultiByte
import NesConsole.Proofs.Processor.Listing
import NesConsole.Proofs.Processor.Stages
/-!
# Addressing on flat memory

Where an instruction on flat memory finds its byte, by the numbers of the cells: the operand bytes behind the opcode, read
as a little-endian number, the pointer that they may name, and the index that may be added.  The three ways in which an
address comes round, in page 0, in the page of a pointer and at the top of memory, are remainders here.  Resolving an
operand reads just those cells and ends in just that address (`AddressMode.resolve_touches`,
`AddressMode.resolve_effective`).
-/
namespace NesConsole

/-- An access without its byte. -/
inductive Touch where
  | reads (cell : Nat)
  | writes (cell : Nat)
  deriving DecidableEq

def Access.touch : Access → Touch
  | .read address _ => .reads address.toNat
  | .write address _ => .writes address.toNat

namespace FlatMemory

def byteAt (memory : FlatMemory) (cell : Nat) : UInt8 := memory.get (UInt16.ofNat cell)

/-- The number whose bytes are in these cells, the lowest first. -/
def number (memory : FlatMemory) (cells : List Nat) : Nat :=
  littleEndian (cells.map memory.byteAt)

theorem byteAt_toNat (memory : FlatMemory) (address : UInt16) : memory.byteAt address.toNat = memory.get address := by
  rw [byteAt, UInt16.ofNat_toNat]

end FlatMemory

/-! ## The cells of an address -/

/-- The cells of a pointer; the second never leaves the page of the first. -/
def pointerCells (cell : Nat) : List Nat := [cell, cell / 0x100 * 0x100 + (cell + 1) % 0x100]

namespace AddressMode

/-- The operand bytes that an address is made from; they are behind the opcode that the program counter names. -/
def operandCells (mode : AddressMode) (r : Registers) : List Nat :=
  let position := (r.pc + 1).toNat
  match mode with
  | implied | accumulator | immediate | relative => []
  | zeroPage | zeroPageX | zeroPageY | indirectX | indirectY => [position]
  | absolute | absoluteX | absoluteY | indirect => [position, (position + 1) % 0x10000]

/-- Where a pointer is read from, if the operand bytes name one. -/
def pointer? (mode : AddressMode) (memory : FlatMemory) (r : Registers) : Option Nat :=
  let operand := memory.number (mode.operandCells r)
  match mode with
  | indirect | indirectY => some operand
  | indirectX => some ((operand + r.x.toNat) % 0x100)
  | _ => none

/-- All that is read before the address is known. -/
def cells (mode : AddressMode) (memory : FlatMemory) (r : Registers) : List Nat :=
  mode.operandCells r ++ (mode.pointer? memory r).elim [] pointerCells

/-- The address before an index is added. -/
def base (mode : AddressMode) (memory : FlatMemory) (r : Registers) : Nat :=
  memory.number ((mode.pointer? memory r).elim (mode.operandCells r) pointerCells)

/-- Where an instruction in this mode finds its byte. -/
def effective? (mode : AddressMode) (memory : FlatMemory) (r : Registers) : Option Nat :=
  let base := mode.base memory r
  match mode with
  | implied | accumulator => none
  | immediate | relative => some (r.pc + 1).toNat
  | zeroPage | absolute | indirect | indirectX => some base
  | zeroPageX => some ((base + r.x.toNat) % 0x100)
  | zeroPageY => some ((base + r.y.toNat) % 0x100)
  | absoluteX => some ((base + r.x.toNat) % 0x10000)
  | absoluteY | indirectY => some ((base + r.y.toNat) % 0x10000)

end AddressMode

/-! ## Reading them -/

namespace FlatMemory

variable (memory : FlatMemory)

theorem number_one (address : UInt16) : memory.number [address.toNat] = (memory.get address).toNat := by
  rw [number, List.map_singleton, memory.byteAt_toNat]
  exact Nat.ofDigits_singleton

theorem number_two {low high : UInt16} {cell : Nat} (h : high.toNat = cell) :
    memory.number [low.toNat, cell] = ((memory.get high).toUInt16 <<< 8 ||| (memory.get low).toUInt16).toNat := by
  subst h
  rw [toNat_word, number, List.map_cons, List.map_singleton, memory.byteAt_toNat, memory.byteAt_toNat, littleEndian_cons]
  exact congrArg _ (congrArg _ Nat.ofDigits_singleton)

theorem toNat_inZeroPage (address : UInt16) (index : UInt8) :
    (memory.get address + index).toUInt16.toNat = (memory.number [address.toNat] + index.toNat) % 0x100 := by
  rw [UInt8.toNat_toUInt16, UInt8.toNat_add, number_one]

theorem toNat_word_perform (address : UInt16) :
    ((Exchange.word address).perform memory).1.toNat = memory.number [address.toNat, (address.toNat + 1) % 0x10000] :=
  (memory.number_two (UInt16.toNat_add address 1)).symm

theorem toNat_pointer_perform (address : UInt16) :
    ((Exchange.pointer address).perform memory).1.toNat = memory.number (pointerCells address.toNat) :=
  (memory.number_two (toNat_succ_inPage address)).symm

theorem touches_word (address : UInt16) :
    ((Exchange.word address).accesses memory).map Access.touch =
      [.reads address.toNat, .reads ((address.toNat + 1) % 0x10000)] := by
  show [_, Touch.reads (address + 1).toNat] = _
  rw [UInt16.toNat_add]
  rfl

theorem touches_pointer (address : UInt16) :
    ((Exchange.pointer address).accesses memory).map Access.touch = (pointerCells address.toNat).map .reads := by
  show [_, Touch.reads (address &&& 0xFF00 ||| (address + 1) &&& 0x00FF).toNat] = _
  rw [toNat_succ_inPage]
  rfl

end FlatMemory

namespace AddressMode

variable (mode : AddressMode) (r : Registers) (memory : FlatMemory)

theorem resolve_effective :
    ((mode.resolve (r.pc + 1) r).perform memory).1.address.map UInt16.toNat = mode.effective? memory r := by
  have hword := memory.toNat_word_perform (r.pc + 1)
  have hbyte := memory.number_one (r.pc + 1)
  have hindexed {base : UInt16} {n : Nat} (h : base.toNat = n) (index : UInt8) :
      (base + index.toUInt16).toNat = (n + index.toNat) % 0x10000 := by
    rw [UInt16.toNat_add, UInt8.toNat_toUInt16, h]
  cases mode with
  | implied | accumulator | immediate | relative => rfl
  | zeroPage => exact congrArg some hbyte.symm
  | zeroPageX => exact congrArg some (memory.toNat_inZeroPage (r.pc + 1) r.x)
  | zeroPageY => exact congrArg some (memory.toNat_inZeroPage (r.pc + 1) r.y)
  | absolute => exact congrArg some hword
  | absoluteX => exact congrArg some (hindexed hword r.x)
  | absoluteY => exact congrArg some (hindexed hword r.y)
  | indirect =>
    show some ((Exchange.pointer ((Exchange.word (r.pc + 1)).perform memory).1).perform memory).1.toNat = _
    rw [memory.toNat_pointer_perform, hword]
    rfl
  | indirectX =>
    show some ((Exchange.pointer (memory.get (r.pc + 1) + r.x).toUInt16).perform memory).1.toNat = _
    rw [memory.toNat_pointer_perform, memory.toNat_inZeroPage]
    rfl
  | indirectY =>
    have hbase : ((Exchange.pointer (memory.get (r.pc + 1)).toUInt16).perform memory).1.toNat =
        indirectY.base memory r := by
      rw [memory.toNat_pointer_perform, UInt8.toNat_toUInt16, ← hbyte]
      rfl
    exact congrArg some (hindexed hbase r.y)

theorem resolve_touches :
    ((mode.resolve (r.pc + 1) r).accesses memory).map Access.touch =
      (mode.cells memory r).map .reads := by
  -- a pointer is read on the memory that reading the operand left, whose bytes are the same
  have hpointer {cell : UInt16} {n : Nat} (h : cell.toNat = n) (memory' : FlatMemory) :
      ((Exchange.pointer cell).accesses memory').map Access.touch = (pointerCells n).map .reads :=
    h ▸ memory'.touches_pointer cell
  cases mode with
  | implied | accumulator | immediate | relative | zeroPage | zeroPageX | zeroPageY => rfl
  | absolute | absoluteX | absoluteY => exact memory.touches_word (r.pc + 1)
  | indirect =>
    have hword := memory.toNat_word_perform (r.pc + 1)
    simp only [resolve, Exchange.accesses_seq, Exchange.accesses_pure, List.append_nil, List.map_append,
      memory.touches_word, hpointer hword]
    rfl
  | indirectX => exact congrArg (_ :: ·) (hpointer (memory.toNat_inZeroPage (r.pc + 1) r.x) _)
  | indirectY =>
    have hbyte := (UInt8.toNat_toUInt16 _).trans (memory.number_one (r.pc + 1)).symm
    exact congrArg (_ :: ·) (hpointer hbyte _)

theorem resolve_flat : ∃ reads, ((mode.resolve (r.pc + 1) r).perform memory).2 = { memory with reads } := by
  cases mode <;> exact ⟨_, rfl⟩

end AddressMode

/-! ## What an address depends on -/

theorem FlatMemory.number_congr {memory memory' : FlatMemory} {cells : List Nat}
    (h : ∀ cell ∈ cells, memory'.byteAt cell = memory.byteAt cell) : memory'.number cells = memory.number cells :=
  congrArg littleEndian (List.map_congr_left h)

/-- Registers that address alike. -/
structure Registers.Addresses (r r' : Registers) : Prop where
  pc : r'.pc = r.pc
  x : r'.x = r.x
  y : r'.y = r.y

theorem Registers.Addresses.past {r r' : Registers} (h : r.Addresses r') (mode : AddressMode) :
    (r.past mode).Addresses (r'.past mode) :=
  ⟨congrArg (· + UInt16.ofNat mode.size) h.pc, h.x, h.y⟩

/-- **An address depends on the cells it is made from**, the program counter, X and Y, and on nothing else. -/
theorem AddressMode.effective_congr (mode : AddressMode) {memory memory' : FlatMemory} {r r' : Registers}
    (hr : r.Addresses r') (h : ∀ cell ∈ mode.cells memory r, memory'.byteAt cell = memory.byteAt cell) :
    mode.effective? memory' r' = mode.effective? memory r := by
  have hcells : mode.operandCells r' = mode.operandCells r := by simp only [operandCells, hr.pc]
  have hoperand : memory'.number (mode.operandCells r') = memory.number (mode.operandCells r) := by
    rw [hcells]
    exact FlatMemory.number_congr fun cell hmem => h cell (List.mem_append_left _ hmem)
  have hpointer : mode.pointer? memory' r' = mode.pointer? memory r := by
    simp only [pointer?, hoperand, hr.x]
  have hbase : mode.base memory' r' = mode.base memory r := by
    unfold base
    rw [hpointer]
    cases hfound : mode.pointer? memory r with
    | none => exact hoperand
    | some cell =>
      apply FlatMemory.number_congr
      intro part hmem
      apply h part
      rw [cells, hfound]
      exact List.mem_append_right _ hmem
  simp only [effective?, hbase, hr.pc, hr.x, hr.y]

/-! ## Instructions on flat memory -/

namespace Processor

variable (cpu : Processor) (memory : FlatMemory)

/-- Listing a step is counted, and leaves no other trace in flat memory. -/
theorem listed_flat : ∃ reads, cpu.listed memory = { memory with reads } := by
  refine cpu.listed_keeps (P := fun memory' => ∃ reads, memory' = { memory with reads }) ⟨memory.reads, rfl⟩ ?_
  rintro _ _ _ ⟨reads, rfl⟩
  exact ⟨reads + 1, rfl⟩

theorem opcode_flat : cpu.opcode memory = memory.get cpu.registers.pc := by
  obtain ⟨reads, hlisted⟩ := cpu.listed_flat memory
  rw [opcode, hlisted]
  rfl

theorem opened_flat : ∃ reads, cpu.opened memory = { memory with reads } := by
  obtain ⟨reads, hlisted⟩ := cpu.listed_flat memory
  exact ⟨reads + 1, by rw [opened, hlisted]; rfl⟩

theorem resolved_flat (mode : AddressMode) :
    (cpu.resolved memory mode).1.address.map UInt16.toNat =
        mode.effective? memory cpu.registers ∧
      ∃ reads, (cpu.resolved memory mode).2 = { memory with reads } := by
  obtain ⟨reads, hopened⟩ := cpu.opened_flat memory
  unfold resolved
  rw [hopened]
  exact ⟨mode.resolve_effective _ { memory with reads }, mode.resolve_flat _ { memory with reads }⟩

end Processor
end NesConsole
