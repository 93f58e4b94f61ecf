import NesConsole.Proofs.Processor.Cycles
import NesConsole.Proofs.Processor.Addressing
/-!
# Listings agree with steps

How long an instruction is, in which order its operand bytes stand, and where a branch leads to is known twice: to the
listing, and to the step that executes the instruction.  Here the two are put side by side on flat memory.  A step goes on
behind the listed bytes, unless the operation jumps or branches (`Processor.step_continues`), and then, if the listing
shows an address to go to, it goes there (`Disassembly.line_agrees`).
-/
namespace NesConsole

/-! ## Where a step goes on -/

namespace Registers

variable {r : Registers}

theorem push_continues (value : UInt8) : (r.push value).Ends (·.pc = r.pc) := rfl

theorem pull_continues : r.pull.Ends (·.2.pc = r.pc) := fun _ => rfl

end Registers

namespace Operation

/-- The operations that set the program counter whatever the flags. -/
def jumps : Operation → Bool
  | jmp | jsr | rts | rti | brk => true
  | _ => false

/-- **An operation that neither jumps nor branches leaves the program counter where it is**, behind the instruction. -/
theorem execute_continues (operation : Operation) (operand : Operand) {r : Registers} (hjumps : operation.jumps = false)
    (hbranches : operation.branchesOn r.p = false) :
    (operation.execute operand r).Ends (Effect.Leaves (·.pc = r.pc)) := by
  cases operation with
  | lda | ldx | ldy | adc | sbc | and | ora | eor | bit | cmp | cpx | cpy => exact reading_leaves operand fun _ => rfl
  | sta | stx | sty => exact storing_leaves (P := fun r' => r'.pc = r.pc) operand rfl _
  | tax | tay | tsx | txa | tya | txs | inx | iny | dex | dey | clc | cld | cli | clv | sec | sed | sei | nop =>
    exact internal_leaves rfl
  | inc | dec => exact replacing_leaves operand (fun _ => rfl) _
  | asl => exact shifting_leaves operand (fun _ _ _ => rfl) shiftLeft
  | lsr => exact shifting_leaves operand (fun _ _ _ => rfl) shiftRight
  | rol => exact shifting_leaves operand (fun _ _ _ => rfl) rotateLeft
  | ror => exact shifting_leaves operand (fun _ _ _ => rfl) rotateRight
  | pha | php => exact (Registers.push_continues _).bind fun _ h => internal_leaves h
  | pla | plp => exact Registers.pull_continues.bind fun _ h => internal_leaves h
  | jmp | jsr | rts | rti | brk => cases hjumps
  | bcc | bcs | bne | beq | bpl | bmi | bvc | bvs =>
    rw [execute_branch rfl, hbranches]
    exact internal_leaves rfl

end Operation

namespace Instruction

variable {code : UInt8} {i : Instruction}

theorem mode_of_branchesOn (h : decode code = some i) {p : Status} (htaken : i.operation.branchesOn p = true) :
    i.operation.use = .branches ∧ i.mode = .relative := by
  have huse : i.operation.use = .branches := by
    by_contra hother
    rw [Operation.branchesOn_of_use hother] at htaken
    cases htaken
  exact ⟨huse, (decode_cycles h).2.2 huse⟩

/-- Calls come in one mode. -/
theorem mode_of_jsr (h : decode code = some i) (hjsr : i.operation = .jsr) : i.mode = .absolute := by
  have hopcode : i.operation.opcode? i.mode = some code := decode_iff.1 ⟨i, h, rfl, rfl⟩
  rw [hjsr] at hopcode
  change (if i.mode = .absolute then some (0x20 : UInt8) else none) = some code at hopcode
  by_contra hother
  rw [if_neg hother] at hopcode
  cases hopcode

end Instruction

namespace Processor

variable {β : Type} [Bus β] {cpu : Processor} {bus : β} {i : Instruction}

theorem step_continues (h : Instruction.decode (cpu.opcode bus) = some i) (hjumps : i.operation.jumps = false)
    (hbranches : i.operation.branchesOn cpu.registers.p = false) :
    (cpu.step bus).2.1.registers.pc = cpu.registers.pc + UInt16.ofNat i.size := by
  obtain ⟨effect, heffect, -, hregisters, -⟩ := step_executes h
  have hkept := i.operation.execute_continues (cpu.resolved bus i.mode).1 (r := cpu.registers.past i.mode) hjumps hbranches
  rw [hregisters]
  exact hkept.perform (cpu.resolved bus i.mode).2 effect heffect

theorem step_branches (h : Instruction.decode (cpu.opcode bus) = some i)
    (htaken : i.operation.branchesOn cpu.registers.p = true) :
    (cpu.step bus).2.1.registers.pc = cpu.registers.pc + UInt16.ofNat i.size +
      signExtend (Bus.read (cpu.opened bus) (cpu.registers.pc + 1)).1 := by
  obtain ⟨huse, hmode⟩ := Instruction.mode_of_branchesOn h htaken
  obtain ⟨effect, heffect, -, hregisters, -⟩ := step_executes h
  have hbranching : cpu.operating bus i.operation i.mode =
      Operation.branching (cpu.resolved bus i.mode).1 (cpu.registers.past i.mode) true := by
    rw [← htaken]
    exact Operation.execute_branch huse _ _
  rw [hregisters]
  rw [hbranching, hmode] at heffect
  cases heffect
  simp only [Instruction.size, hmode]
  rfl

/-- A jump and a call go to the word behind the opcode. -/
theorem step_jumps (h : Instruction.decode (cpu.opcode bus) = some i)
    (hjump : i.operation = .jmp ∧ i.mode = .absolute ∨ i.operation = .jsr) :
    i.mode = .absolute ∧
      (cpu.step bus).2.1.registers.pc = ((Exchange.word (cpu.registers.pc + 1)).perform (cpu.opened bus)).1 := by
  have hmode : i.mode = .absolute := hjump.elim And.right (Instruction.mode_of_jsr h)
  obtain ⟨effect, heffect, -, hregisters, -⟩ := step_executes h
  refine ⟨hmode, ?_⟩
  rw [hregisters]
  rw [hmode] at heffect
  obtain ⟨hjmp, -⟩ | hjsr := hjump
  · rw [hjmp] at heffect
    cases heffect
    rfl
  · rw [hjsr] at heffect
    cases heffect
    rfl

end Processor

/-! ## What a listing shows -/

/-- A word is written by its bytes, the high one first. -/
theorem hexWord_word (low high : UInt8) : hexWord (high.toUInt16 <<< 8 ||| low.toUInt16) = hexByte high ++ hexByte low := by
  have hlow : (high.toUInt16 <<< 8 ||| low.toUInt16).toUInt8 = low := by
    rw [← UInt8.toNat_inj, UInt16.toNat_toUInt8, toNat_word]
    have := low.toNat_lt
    omega
  have hhigh : ((high.toUInt16 <<< 8 ||| low.toUInt16) >>> 8).toUInt8 = high := by
    rw [← UInt8.toNat_inj, UInt16.toNat_toUInt8, UInt16.toNat_shiftRight, toNat_word, Nat.shiftRight_eq_div_pow]
    have := low.toNat_lt
    have := high.toNat_lt
    change (low.toNat + 0x100 * high.toNat) / 0x100 % 0x100 = high.toNat
    omega
  rw [hexWord, hexWordDigits, hlow, hhigh, String.ofList_append]
  rfl

namespace FlatMemory

/-- The bytes from an address on; behind the top of memory they go on at its bottom. -/
def bytesFrom (memory : FlatMemory) (start : UInt16) (count : Nat) : List UInt8 :=
  (List.range count).map fun i => memory.get (start + UInt16.ofNat i)

theorem bytesFrom_succ (memory : FlatMemory) (start : UInt16) (count : Nat) :
    memory.bytesFrom start (count + 1) = memory.get start :: memory.bytesFrom (start + 1) count := by
  have hnext (i : Nat) : start + UInt16.ofNat (i + 1) = start + 1 + UInt16.ofNat i := by
    rw [UInt16.ofNat_add, UInt16.add_comm (UInt16.ofNat i), ← UInt16.add_assoc]
    rfl
  have hfirst : start + UInt16.ofNat 0 = start := UInt16.add_zero start
  simp only [bytesFrom, List.range_succ_eq_map, List.map_cons, List.map_map, Function.comp_def, hfirst, hnext]

theorem length_bytesFrom (memory : FlatMemory) (start : UInt16) (count : Nat) :
    (memory.bytesFrom start count).length = count := by
  rw [bytesFrom, List.length_map, List.length_range]

theorem getElem?_bytesFrom (memory : FlatMemory) (start : UInt16) {count i : Nat} (h : i < count) :
    (memory.bytesFrom start count)[i]? = some (memory.get (start + UInt16.ofNat i)) := by
  rw [bytesFrom, List.getElem?_map, List.getElem?_range h]
  rfl

end FlatMemory

namespace Disassembly

theorem fetch_flat (memory : FlatMemory) (pc : UInt16) (count : Nat) :
    (fetch pc count).perform memory = (memory.bytesFrom pc count, { memory with reads := memory.reads + count }) := by
  induction count generalizing memory pc with
  | zero => rfl
  | succ count ih =>
    rw [fetch, Exchange.perform_seq]
    change (fetch (pc + 1) count >>= _).perform { memory with reads := memory.reads + 1 } = _
    rw [Exchange.perform_seq, ih, memory.bytesFrom_succ, Nat.add_comm count, ← Nat.add_assoc]
    rfl

/-- Each byte is written with two digits, and blanks stand for those that the instruction does not have. -/
theorem columns_eq {bytes : List UInt8} (h : bytes.length ≤ 3) :
    columns bytes = " ".intercalate (bytes.map hexByte ++ .replicate (3 - bytes.length) "  ") := by
  match bytes, h with
  | [], _ => rfl
  | [_], _ => rfl
  | [_, _], _ => rfl
  | [_, _, _], _ => rfl

/-- **The line of an instruction in flat memory**: its address, the bytes from there on, and its text. -/
theorem line_flat {memory : FlatMemory} {pc : UInt16} {i : Instruction} (h : Instruction.decode (memory.get pc) = some i) :
    let bytes := memory.bytesFrom pc i.size
    (line pc).perform memory =
      (hexWord pc ++ ": " ++ columns bytes ++ "   " ++ i.format (bytes[1]?.getD 0) (bytes[2]?.getD 0) pc,
        { memory with reads := memory.reads + 1 + i.size }) := by
  intro bytes
  have hcode : (Exchange.byte pc).perform memory = (memory.get pc, { memory with reads := memory.reads + 1 }) := rfl
  unfold line
  rw [Exchange.perform_seq, hcode, Exchange.perform_seq, h]
  dsimp only [Option.elim_some]
  rw [fetch_flat]
  rfl

end Disassembly

/-! ## The agreement -/

namespace Processor

theorem opened_read (cpu : Processor) (memory : FlatMemory) (address : UInt16) :
    (Bus.read (cpu.opened memory) address).1 = memory.get address := by
  obtain ⟨reads, hopened⟩ := cpu.opened_flat memory
  rw [hopened]
  rfl

/-- Listing a step leaves a line in the history and counted reads, and so never pauses. -/
theorem noteStep_flat (cpu : Processor) (memory : FlatMemory) :
    ∃ history reads, cpu.noteStep memory = ({ cpu with history }, { memory with reads }) := by
  obtain ⟨history, hnoted⟩ := cpu.noteStep_eq memory
  obtain ⟨reads, hlisted⟩ := cpu.listed_flat memory
  exact ⟨history, reads, Prod.ext hnoted hlisted⟩

end Processor

namespace Disassembly

variable {cpu : Processor} {memory : FlatMemory} {i : Instruction}

/-- Where the step goes to an address that its operand bytes give, the text ends in that address. -/
theorem format_target (h : Instruction.decode (cpu.opcode memory) = some i)
    (hgoes : i.operation.branchesOn cpu.registers.p = true ∨ (i.operation = .jmp ∧ i.mode = .absolute) ∨
      i.operation = .jsr) :
    let bytes := memory.bytesFrom cpu.registers.pc i.size
    i.format (bytes[1]?.getD 0) (bytes[2]?.getD 0) cpu.registers.pc =
      i.name ++ " $" ++ hexWord (cpu.step memory).2.1.registers.pc := by
  intro bytes
  have hbyte {k : Nat} (hk : k < i.mode.size) :
      bytes[k]?.getD 0 = memory.get (cpu.registers.pc + UInt16.ofNat k) :=
    congrArg (·.getD 0) (memory.getElem?_bytesFrom cpu.registers.pc hk)
  obtain htaken | hjump := hgoes
  · obtain ⟨-, hmode⟩ := Instruction.mode_of_branchesOn h htaken
    rw [Processor.step_branches h htaken, Processor.opened_read, hbyte (by rw [hmode]; decide)]
    simp only [Instruction.format, hmode]
    rfl
  · obtain ⟨hmode, hnext⟩ := Processor.step_jumps h hjump
    have hword : ((Exchange.word (cpu.registers.pc + 1)).perform (cpu.opened memory)).1 =
        (memory.get (cpu.registers.pc + 2)).toUInt16 <<< 8 ||| (memory.get (cpu.registers.pc + 1)).toUInt16 := by
      obtain ⟨reads, hopened⟩ := cpu.opened_flat memory
      have hsecond : cpu.registers.pc + 1 + 1 = cpu.registers.pc + 2 := UInt16.add_assoc _ 1 1
      rw [hopened, ← hsecond]
      rfl
    have hdollar : (" $" : String) = " " ++ "$" := rfl
    rw [hnext, hword, hexWord_word, hbyte (by rw [hmode]; decide), hbyte (by rw [hmode]; decide), hdollar]
    simp only [Instruction.format, hmode, String.append_assoc]
    rfl

/-- **A listing shows what a step does.**  The line of an instruction gives its address, its bytes and its text.  A step
goes on behind these bytes, unless the operation jumps or takes a branch; a taken branch, a direct jump and a call go to
the address in the text.  Listing changes no byte of memory, and pauses no processor. -/
theorem line_agrees (cpu : Processor) (memory : FlatMemory) {i : Instruction}
    (h : Instruction.decode (memory.get cpu.registers.pc) = some i) :
    let pc := cpu.registers.pc
    let bytes := memory.bytesFrom pc i.size
    let text := i.format (bytes[1]?.getD 0) (bytes[2]?.getD 0) pc
    let next := (cpu.step memory).2.1.registers.pc
    (line pc).perform memory =
        (hexWord pc ++ ": " ++ " ".intercalate (bytes.map hexByte ++ .replicate (3 - bytes.length) "  ") ++ "   " ++ text,
          { memory with reads := memory.reads + 1 + bytes.length }) ∧
      (i.operation.jumps = false → i.operation.branchesOn cpu.registers.p = false →
        next = pc + UInt16.ofNat bytes.length) ∧
      (i.operation.branchesOn cpu.registers.p = true ∨ (i.operation = .jmp ∧ i.mode = .absolute) ∨ i.operation = .jsr →
        text = i.name ++ " $" ++ hexWord next) ∧
      ∃ history reads, cpu.noteStep memory = ({ cpu with history }, { memory with reads }) := by
  intro pc bytes text next
  have hopcode : Instruction.decode (cpu.opcode memory) = some i := by rwa [cpu.opcode_flat]
  have hlength : bytes.length = i.size := memory.length_bytesFrom pc i.size
  have hcolumns : bytes.length ≤ 3 := by
    have hsize := (size_bounds (memory.get pc)).2
    rw [h] at hsize
    exact hlength ▸ hsize
  refine ⟨?_, ?_, format_target hopcode, cpu.noteStep_flat memory⟩
  · rw [← columns_eq hcolumns, hlength]
    exact line_flat h
  · rw [hlength]
    exact Processor.step_continues hopcode

/-- A jump whose operand bytes stand at the bottom of memory, behind its opcode at the top. -/
theorem line_agrees_wraps :
    let memory := ({} : FlatMemory).load 0xFFFF [0x4C, 0x34, 0x12]
    let cpu := Processor.starting { pc := 0xFFFF }
    Instruction.decode (memory.get cpu.registers.pc) = Instruction.fixed .jmp .absolute 3 ∧
      ((line 0xFFFF).perform memory).1 = "FFFF: 4C 34 12   JMP $" ++ hexWord (cpu.step memory).2.1.registers.pc := by
  intro memory cpu
  have hget (address : UInt16) : memory.get address = [0x4C, 0x34, 0x12][(address - 0xFFFF).toNat]?.getD 0 := by
    rw [FlatMemory.get_load _ _ (by decide), FlatMemory.get_empty]
  have hdecode : Instruction.decode (memory.get cpu.registers.pc) = Instruction.fixed .jmp .absolute 3 := by
    rw [hget]
    decide
  have hbytes : memory.bytesFrom cpu.registers.pc 3 = [0x4C, 0x34, 0x12] := by
    simp only [FlatMemory.bytesFrom, hget]
    decide
  obtain ⟨hline, -, hgoes, -⟩ := line_agrees cpu memory hdecode
  rw [hgoes (.inr (.inl ⟨rfl, rfl⟩))] at hline
  refine ⟨hdecode, (congrArg Prod.fst hline).trans ?_⟩
  change hexWord 0xFFFF ++ ": " ++ " ".intercalate ((memory.bytesFrom cpu.registers.pc 3).map hexByte ++
    .replicate (3 - (memory.bytesFrom cpu.registers.pc 3).length) "  ") ++ "   " ++ ("JMP" ++ " $" ++ hexWord _) = _
  rw [hbytes, ← String.append_assoc]
  exact congrArg (· ++ hexWord _) (by decide)

end Disassembly
end NesConsole
