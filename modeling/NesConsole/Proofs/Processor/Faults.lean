import NesConsole.Proofs.Processor.Addressing
import NesConsole.Proofs.Processor.Opcodes
/-!
# How a step can fault

Two faults are known to processors: an opcode that no instruction has, and an operation without the operand it needs.  A
step can only come upon the first.  The matrix pairs every operation that needs an address with a mode that has one, so an
operation that is fetched has an effect, and what a step records is told by the opcode alone (`Processor.step_faults`).
The second fault is left to operations that are executed by themselves.
-/
namespace NesConsole

namespace Instruction

/-- The opcodes of the reference, operation by operation. -/
def documented : List UInt8 :=
  Operation.all.flatMap fun operation => AddressMode.all.filterMap operation.opcode?

/-- No two instructions share an opcode. -/
theorem opcode?_inj {operation operation' : Operation} {mode mode' : AddressMode} {code : UInt8}
    (h : operation.opcode? mode = some code) (h' : operation'.opcode? mode' = some code) :
    operation = operation' ∧ mode = mode' := by
  obtain ⟨i, hdecode, rfl, rfl⟩ := decode_iff.2 h
  obtain ⟨i', hdecode', rfl, rfl⟩ := decode_iff.2 h'
  obtain rfl := Option.some.inj (hdecode.symm.trans hdecode')
  exact ⟨rfl, rfl⟩

theorem documented_nodup : documented.Nodup := by
  have hoperations : Operation.all.Pairwise (· ≠ ·) := by decide +kernel
  have hmodes : AddressMode.all.Pairwise (· ≠ ·) := by decide +kernel
  refine List.pairwise_flatMap.2 ⟨fun operation _ => List.pairwise_filterMap.2 (hmodes.imp ?_), hoperations.imp ?_⟩
  · rintro mode mode' hne code h _ h' rfl
    exact hne (opcode?_inj h h').2
  · intro operation operation' hne code h _ h' hsame
    obtain ⟨mode, -, hopcode⟩ := List.mem_filterMap.1 h
    obtain ⟨mode', -, hopcode'⟩ := List.mem_filterMap.1 h'
    exact hne (opcode?_inj hopcode (hsame ▸ hopcode')).1

theorem length_documented : documented.length = 151 := by decide +kernel

/-- **The matrix maps the documented opcodes, and no others.** -/
theorem mem_documented {code : UInt8} : code ∈ documented ↔ ∃ i, decode code = some i := by
  simp only [documented, List.mem_flatMap, List.mem_filterMap]
  constructor
  · rintro ⟨operation, -, mode, -, hopcode⟩
    obtain ⟨i, hdecode, -⟩ := decode_iff.2 hopcode
    exact ⟨i, hdecode⟩
  · rintro ⟨i, hdecode⟩
    exact ⟨i.operation, i.operation.mem_all, i.mode, i.mode.mem_all, decode_iff.1 ⟨i, hdecode, rfl, rfl⟩⟩

theorem decode_undocumented {code : UInt8} (h : code ∉ documented) : decode code = none :=
  Option.eq_none_iff_forall_ne_some.2 fun i hdecode => h (mem_documented.2 ⟨i, hdecode⟩)

end Instruction

namespace Processor

variable {β : Type} [Bus β]

/-- A documented opcode records nothing, since an operation's effect leaves the fault alone. -/
theorem step_documented {cpu : Processor} {bus : β} (h : cpu.opcode bus ∈ Instruction.documented) :
    (cpu.step bus).2.1.fault = cpu.fault := by
  obtain ⟨i, hdecode⟩ := Instruction.mem_documented.1 h
  obtain ⟨effect, heffect, -⟩ := step_executes hdecode
  obtain ⟨history, hnoted⟩ := cpu.noteStep_eq bus
  rw [step_performed, fetched_mapped hdecode]
  dsimp only
  rw [heffect]
  simp only [conclude, settle, watched, hnoted]

/-- **What a step records is told by its opcode**: one of the 151 documented ones has the operand that its operation needs
and leaves the fault as it was, and any other is recorded with its address.  At such an opcode the step takes no cycles,
pauses just behind it, and changes neither the other registers nor, on flat memory, a byte. -/
theorem step_faults (cpu : Processor) (bus : β) :
    Instruction.documented.Nodup ∧ Instruction.documented.length = 151 ∧
    (∀ operation mode, operation.opcode? mode = some (cpu.opcode bus) →
      ((cpu.operating bus operation mode).perform (cpu.resolved bus mode).2).1.isSome = true) ∧
    (cpu.step bus).2.1.fault =
      (if cpu.opcode bus ∈ Instruction.documented then cpu.fault
        else some (.unknownOpcode (cpu.opcode bus) cpu.registers.pc)) ∧
    (cpu.opcode bus ∉ Instruction.documented → cpu.step bus = (0, cpu.faulted bus, cpu.opened bus)) ∧
    ∀ memory : FlatMemory, cpu.opcode memory ∉ Instruction.documented →
      (cpu.step memory).2.2.bytes = memory.bytes := by
  refine ⟨Instruction.documented_nodup, Instruction.length_documented, ?_, ?_, ?_, ?_⟩
  · intro operation mode hopcode
    obtain ⟨i, hdecode, rfl, rfl⟩ := Instruction.decode_iff.2 hopcode
    obtain ⟨effect, heffect, -⟩ := step_executes hdecode
    rw [heffect]
    rfl
  · split
    · next hdocumented => exact step_documented hdocumented
    · next hundocumented =>
      rw [step_unmapped (Instruction.decode_undocumented hundocumented)]
      rfl
  · intro hundocumented
    exact step_unmapped (Instruction.decode_undocumented hundocumented)
  · intro memory hundocumented
    obtain ⟨reads, hopened⟩ := cpu.opened_flat memory
    rw [step_unmapped (Instruction.decode_undocumented hundocumented), hopened]

/-- At the top of memory the program counter comes round to `$0000`. -/
theorem step_faults_wraps :
    let memory := ({} : FlatMemory).load 0xFFFF [0x02]
    let cpu := starting { a := 1, s := 0xFD, pc := 0xFFFF }
    cpu.opcode memory ∉ Instruction.documented ∧ (cpu.step memory).1 = 0 ∧
      (cpu.step memory).2.1.registers = { a := 1, s := 0xFD, pc := 0 } ∧
      (cpu.step memory).2.1.fault = some (.unknownOpcode 0x02 0xFFFF) := by
  intro memory cpu
  have hopcode : cpu.opcode memory = 0x02 := by
    rw [opcode_flat, FlatMemory.get_load _ _ (by decide), FlatMemory.get_empty]
    decide
  have hundocumented : cpu.opcode memory ∉ Instruction.documented := by
    rw [hopcode]
    decide +kernel
  obtain ⟨-, -, -, -, hstep, -⟩ := step_faults cpu memory
  rw [hstep hundocumented]
  refine ⟨hundocumented, rfl, ?_, ?_⟩
  · change ({ cpu.registers with pc := cpu.registers.pc + 1 } : Registers) = _
    decide
  · exact congrArg (fun code => some (Fault.unknownOpcode code 0xFFFF)) hopcode

end Processor
end NesConsole
