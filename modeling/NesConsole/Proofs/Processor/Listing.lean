import NesConsole.Proofs.Accesses
/-!
# Listings only read

In debug mode a step lists its instruction before executing it, and reads the bytes from the bus for that.  It reads at most
three, from the program counter on, so what such reads keep, the listing keeps (`Processor.listed_keeps`).
-/
namespace NesConsole

theorem Exchange.reads_keep {α β : Type} [Bus β] {P : β → Prop} {reads : UInt16 → Prop}
    (hread : ∀ bus address, reads address → P bus → P (Bus.read bus address).2) {e : Exchange α} {bus : β} (h : P bus)
    (hreads : ∀ access ∈ e.accesses bus, ∃ address value, access = .read address value ∧ reads address) :
    P (e.perform bus).2 := by
  induction e generalizing bus with
  | done => exact h
  | read address next ih =>
    obtain ⟨address', value, heq, hallowed⟩ := hreads _ List.mem_cons_self
    cases heq
    apply ih
    · exact hread bus address hallowed h
    · intro access hmem
      exact hreads access (List.mem_cons_of_mem _ hmem)
  | write address value next =>
    obtain ⟨address', value', heq, -⟩ := hreads _ List.mem_cons_self
    cases heq

variable {β : Type} [Bus β]

namespace Disassembly

theorem mem_accesses_fetch {pc : UInt16} {count : Nat} {bus : β} {access : Access}
    (h : access ∈ (fetch pc count).accesses bus) : ∃ i < count, ∃ value, access = .read (pc + UInt16.ofNat i) value := by
  induction count generalizing pc bus with
  | zero => cases h
  | succ count ih =>
    simp only [fetch, Exchange.accesses_seq, Exchange.accesses_byte, Exchange.accesses_pure, List.append_nil,
      List.singleton_append, List.mem_cons] at h
    obtain rfl | h := h
    · refine ⟨0, Nat.succ_pos count, (Bus.read bus pc).1, ?_⟩
      simp
    · obtain ⟨i, hi, value, rfl⟩ := ih h
      refine ⟨i + 1, Nat.succ_lt_succ hi, value, ?_⟩
      rw [UInt16.ofNat_add, UInt16.add_assoc, UInt16.add_comm 1]
      rfl

/-- A listing line shows one to three bytes. -/
theorem size_bounds (code : UInt8) :
    1 ≤ (Instruction.decode code).elim 1 Instruction.size ∧ (Instruction.decode code).elim 1 Instruction.size ≤ 3 := by
  cases Instruction.decode code with
  | none => decide
  | some i =>
    change 1 ≤ i.mode.size ∧ i.mode.size ≤ 3
    cases i.mode <;> decide

/-- A listing reads the instruction's bytes and nothing else. -/
theorem mem_accesses_line {pc : UInt16} {bus : β} {access : Access} (h : access ∈ (line pc).accesses bus) :
    ∃ i < 3, ∃ value, access = .read (pc + UInt16.ofNat i) value := by
  simp only [line, Exchange.accesses_seq, Exchange.accesses_byte, Exchange.accesses_pure, List.append_nil,
    List.singleton_append, List.mem_cons] at h
  obtain rfl | h := h
  · refine ⟨0, by decide, (Bus.read bus pc).1, ?_⟩
    simp
  · obtain ⟨i, hi, hread⟩ := mem_accesses_fetch h
    exact ⟨i, Nat.lt_of_lt_of_le hi (size_bounds _).2, hread⟩

end Disassembly

/-- **What reads at the program counter keep, the listing of a step keeps.** -/
theorem Processor.listed_keeps {P : β → Prop} {bus : β} (cpu : Processor) (h : P bus)
    (hread : ∀ bus, ∀ i < 3, P bus → P (Bus.read bus (cpu.registers.pc + UInt16.ofNat i)).2) : P (cpu.listed bus) := by
  unfold Processor.listed Processor.noteStep
  split
  · let listing (address : UInt16) : Prop := ∃ i < 3, address = cpu.registers.pc + UInt16.ofNat i
    have hkept (bus : β) (address : UInt16) (haddress : listing address) (h : P bus) : P (Bus.read bus address).2 := by
      obtain ⟨i, hi, rfl⟩ := haddress
      exact hread bus i hi h
    apply Exchange.reads_keep (e := Disassembly.line cpu.registers.pc) hkept h
    intro access hmem
    obtain ⟨i, hi, value, rfl⟩ := Disassembly.mem_accesses_line hmem
    exact ⟨_, value, rfl, i, hi, rfl⟩
  · exact h

end NesConsole
