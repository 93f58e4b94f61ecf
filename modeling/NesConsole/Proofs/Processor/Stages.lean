import NesConsole.Proofs.Processor.Forms
/-!
# A step in stages

A step fetches an opcode, resolves the operand of its instruction and executes the operation, each stage on the bus that
the one before left.  What a step of a mapped opcode ends in and what it asks of its bus is put together from these stages
(`Processor.step_executes`, `Processor.accesses_mapped`).  At an unmapped opcode it ends with the first of them
(`Processor.step_unmapped`).
-/
namespace NesConsole

/-- The registers an operation starts from, with the program counter behind an instruction in this mode. -/
def Registers.past (r : Registers) (mode : AddressMode) : Registers := { r with pc := r.pc + UInt16.ofNat mode.size }

namespace Processor

/-- The processor as it is first built, but for its registers. -/
def starting (r : Registers) : Processor :=
  { registers := r, history := { capacity := historyCapacity, newest := [], bounded := Nat.zero_le _ } }

variable {β : Type} [Bus β]

/-- The bus behind the fetch of the opcode. -/
def opened (cpu : Processor) (bus : β) : β :=
  (Bus.read (cpu.listed bus) cpu.registers.pc).2

/-- The operand of an instruction in this mode, and the bus behind its resolution. -/
def resolved (cpu : Processor) (bus : β) (mode : AddressMode) : Operand × β :=
  (mode.resolve (cpu.registers.pc + 1) cpu.registers).perform (cpu.opened bus)

/-- What the operation asks of the bus. -/
def operating (cpu : Processor) (bus : β) (operation : Operation) (mode : AddressMode) : Exchange (Option Effect) :=
  operation.execute (cpu.resolved bus mode).1 (cpu.registers.past mode)

theorem fetched_mapped {cpu : Processor} {bus : β} {i : Instruction}
    (h : Instruction.decode (cpu.opcode bus) = some i) :
    cpu.fetched bus =
      let executed := (cpu.operating bus i.operation i.mode).perform (cpu.resolved bus i.mode).2
      (.executed i (cpu.registers.past i.mode) executed.1 (cpu.resolved bus i.mode).1.pageCrossed, executed.2) := by
  unfold fetched
  rw [Registers.instruction_eq, Exchange.perform_seq]
  show (cpu.registers.decoded (cpu.opcode bus)).perform (cpu.opened bus) = _
  unfold Registers.decoded
  rw [h]
  simp only [Exchange.perform_seq]
  rfl

/-- Of an unmapped opcode nothing is done but fetching it. -/
theorem fetched_unmapped {cpu : Processor} {bus : β} (h : Instruction.decode (cpu.opcode bus) = none) :
    cpu.fetched bus = (.unmapped (cpu.opcode bus), cpu.opened bus) := by
  unfold fetched
  rw [Registers.instruction_eq, Exchange.perform_seq]
  show (cpu.registers.decoded (cpu.opcode bus)).perform (cpu.opened bus) = _
  unfold Registers.decoded
  rw [h]
  rfl

/-- The processor behind an unmapped opcode: paused just behind it, with the fault, and for the rest as its listing left
it. -/
def faulted (cpu : Processor) (bus : β) : Processor :=
  { (cpu.noteStep bus).1 with
    registers := { cpu.registers with pc := cpu.registers.pc + 1 }
    paused := true
    fault := some (.unknownOpcode (cpu.opcode bus) cpu.registers.pc)
    instructionAddress := cpu.registers.pc }

/-- **A step of an unmapped opcode** takes no cycles, and makes no access but its fetch. -/
theorem step_unmapped {cpu : Processor} {bus : β} (h : Instruction.decode (cpu.opcode bus) = none) :
    cpu.step bus = (0, cpu.faulted bus, cpu.opened bus) := by
  obtain ⟨history, hnoted⟩ := cpu.noteStep_eq bus
  rw [step_performed, fetched_unmapped h]
  simp only [conclude, stop, watched, faulted, hnoted]

theorem accesses_mapped {cpu : Processor} {bus : β} {i : Instruction}
    (h : Instruction.decode (cpu.opcode bus) = some i) :
    cpu.accesses bus = .read cpu.registers.pc (cpu.opcode bus) ::
      ((i.mode.resolve (cpu.registers.pc + 1) cpu.registers).accesses (cpu.opened bus) ++
        (cpu.operating bus i.operation i.mode).accesses (cpu.resolved bus i.mode).2) := by
  unfold accesses
  rw [Registers.instruction_eq, Exchange.accesses_seq]
  show _ :: (cpu.registers.decoded (cpu.opcode bus)).accesses (cpu.opened bus) = _
  unfold Registers.decoded
  rw [h]
  simp only [Exchange.accesses_seq, Exchange.accesses_pure, List.append_nil]
  rfl

theorem accesses_unmapped {cpu : Processor} {bus : β} (h : Instruction.decode (cpu.opcode bus) = none) :
    cpu.accesses bus = [.read cpu.registers.pc (cpu.opcode bus)] := by
  unfold accesses
  rw [Registers.instruction_eq, Exchange.accesses_seq]
  show _ :: (cpu.registers.decoded (cpu.opcode bus)).accesses (cpu.opened bus) = _
  unfold Registers.decoded
  rw [h]
  rfl

/-- **A step of a mapped opcode, stage by stage**: its operation always has an effect, which gives the registers, and the
extra cycles on top of the instruction's own. -/
theorem step_executes {cpu : Processor} {bus : β} {i : Instruction}
    (h : Instruction.decode (cpu.opcode bus) = some i) :
    ∃ effect, ((cpu.operating bus i.operation i.mode).perform (cpu.resolved bus i.mode).2).1 = some effect ∧
      (cpu.step bus).1 = i.totalCycles effect.extraCycles (cpu.resolved bus i.mode).1.pageCrossed ∧
      (cpu.step bus).2.1.registers = effect.registers ∧
      (cpu.step bus).2.2 = ((cpu.operating bus i.operation i.mode).perform (cpu.resolved bus i.mode).2).2 := by
  have hregular := cpu.fetched_regular bus
  rw [fetched_mapped h] at hregular
  obtain ⟨-, hsome, -⟩ := hregular
  obtain ⟨effect, heffect⟩ := Option.isSome_iff_exists.1 hsome
  refine ⟨effect, heffect, ?_⟩
  rw [step_performed, fetched_mapped h]
  dsimp only
  rw [heffect]
  exact ⟨rfl, rfl, rfl⟩

/-! ## Runs of steps -/

def stepped (cpu : Processor) (bus : β) : Nat → Processor × β
  | 0 => (cpu, bus)
  | n + 1 => ((cpu.stepped bus n).1.step (cpu.stepped bus n).2).2

variable (cpu : Processor) (bus : β)

@[simp] theorem stepped_zero : cpu.stepped bus 0 = (cpu, bus) := rfl

@[simp] theorem stepped_one : cpu.stepped bus 1 = (cpu.step bus).2 := rfl

theorem stepped_succ (n : Nat) :
    cpu.stepped bus (n + 1) = ((cpu.stepped bus n).1.step (cpu.stepped bus n).2).2 := rfl

theorem stepped_add (m n : Nat) :
    cpu.stepped bus (m + n) = (cpu.stepped bus m).1.stepped (cpu.stepped bus m).2 n := by
  induction n with
  | zero => rfl
  | succ n ih => rw [← Nat.add_assoc, stepped_succ, stepped_succ, ih]

end Processor
end NesConsole
