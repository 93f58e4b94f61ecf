import NesConsole.Proofs.Accesses
import NesConsole.Proofs.Bits
/-!
# The stack page

A call, a break and an interrupt put a frame on the stack, and the return that matches takes it off again.  Both are told
here by the cells above the stack pointer, counted from 1: what was pushed stands in the first of them
(`Entry.enter_pushes`), and a return reads it from there (`Entry.leave_pulls`).  Cells are counted modulo 256, so a frame may
come round at the end of the page.
-/
namespace NesConsole

theorem toNat_stackPage (s : UInt8) : (Registers.stackPage + s.toUInt16).toNat = 0x100 + s.toNat := by
  have hlt : s.toNat < 0x100 := s.toNat_lt
  rw [UInt16.toNat_add, UInt8.toNat_toUInt16]
  exact Nat.mod_eq_of_lt (by change 0x100 + s.toNat < 0x10000; omega)

/-- A bus with a stack page, whose cells hold what was last written to them.  Neither pulls nor the reads of a vector
change what it holds, and pushes change nothing else. -/
class StackMemory (β : Type) [Bus β] where
  stack : β → UInt8 → UInt8
  Rest : Type
  /-- All that the bus holds besides the stack page. -/
  rest : β → Rest
  pulled (bus : β) (s : UInt8) : (Bus.read bus (Registers.stackPage + s.toUInt16)).1 = stack bus s
  keeps_pull (bus : β) (s : UInt8) :
    stack (Bus.read bus (Registers.stackPage + s.toUInt16)).2 = stack bus ∧
      rest (Bus.read bus (Registers.stackPage + s.toUInt16)).2 = rest bus
  keeps_vector (bus : β) {address : UInt16} (h : 0xFFFA ≤ address) :
    stack (Bus.read bus address).2 = stack bus ∧ rest (Bus.read bus address).2 = rest bus
  pushed (bus : β) (s value s' : UInt8) :
    stack (Bus.write bus (Registers.stackPage + s.toUInt16) value) s' = if s' = s then value else stack bus s'
  keeps_push (bus : β) (s value : UInt8) :
    rest (Bus.write bus (Registers.stackPage + s.toUInt16) value) = rest bus

namespace StackMemory

variable {β : Type} [Bus β] [StackMemory β]

/-- The two hold the same, whatever else happened to the bus. -/
def Alike (bus bus' : β) : Prop := stack bus' = stack bus ∧ rest bus' = rest bus

theorem Alike.trans {bus bus' bus'' : β} (h : Alike bus bus') (h' : Alike bus' bus'') : Alike bus bus'' :=
  ⟨h'.1.trans h.1, h'.2.trans h.2⟩

/-- The bytes were pushed, the last one first, and left the stack pointer at `s`. -/
structure Pushed (bytes : List UInt8) (s : UInt8) (bus bus' : β) : Prop where
  frame : ∀ n (h : n < bytes.length), stack bus' (s + UInt8.ofNat (n + 1)) = bytes[n]
  above : ∀ n, bytes.length < n → n ≤ 0x100 → stack bus' (s + UInt8.ofNat n) = stack bus (s + UInt8.ofNat n)
  rest : rest bus' = rest bus

theorem Pushed.nil (s : UInt8) (bus : β) : Pushed [] s bus bus :=
  ⟨fun _ h => absurd h (Nat.not_lt_zero _), fun _ _ _ => rfl, rfl⟩

theorem cell_succ (s : UInt8) (n : Nat) : s - 1 + UInt8.ofNat (n + 1) = s + UInt8.ofNat n := by
  rw [UInt8.ofNat_add, UInt8.add_comm (UInt8.ofNat n), ← UInt8.add_assoc]
  exact congrArg (· + UInt8.ofNat n) (UInt8.sub_add_cancel s 1)

theorem cell_ne (s : UInt8) {n : Nat} (hpos : 0 < n) (hlt : n < 0x100) : s + UInt8.ofNat n ≠ s := by
  intro heq
  have hzero : UInt8.ofNat n = 0 := UInt8.add_eq_left.1 heq
  have hn : n % 0x100 = 0 := by
    rw [← UInt8.toNat_inj, UInt8.toNat_ofNat'] at hzero
    exact hzero
  omega

theorem Pushed.alike {bytes : List UInt8} {s : UInt8} {bus bus' bus'' : β} (h : Pushed bytes s bus bus')
    (halike : Alike bus' bus'') : Pushed bytes s bus bus'' where
  frame n hn := (congrFun halike.1 _).trans (h.frame n hn)
  above n hn hle := (congrFun halike.1 _).trans (h.above n hn hle)
  rest := halike.2.trans h.rest

/-- **One byte more on the stack.** -/
theorem Pushed.cons {bytes : List UInt8} {s : UInt8} {bus bus' : β} (h : Pushed bytes s bus bus')
    (hfits : bytes.length < 0x100) (byte : UInt8) :
    Pushed (byte :: bytes) (s - 1) bus (Bus.write bus' (Registers.stackPage + s.toUInt16) byte) where
  frame n hn := by
    rw [cell_succ, pushed]
    cases n with
    | zero => exact if_pos (UInt8.add_zero s)
    | succ n =>
      have hlt : n < bytes.length := Nat.lt_of_succ_lt_succ hn
      rw [if_neg (cell_ne s (Nat.succ_pos n) (by omega)), h.frame n hlt]
      rfl
  above n hn hle := by
    rw [List.length_cons] at hn
    obtain ⟨m, rfl⟩ := Nat.exists_eq_add_of_lt hn
    rw [cell_succ, pushed, if_neg (cell_ne s (by omega) (by omega))]
    exact h.above _ (by omega) (by omega)
  rest := (keeps_push bus' s byte).trans h.rest

/-! ## What single exchanges do to it -/

variable (r : Registers) (bus : β)

/-- A word is pushed so that its low byte is pulled first. -/
theorem pushWord_performs (value : UInt16) :
    ((r.pushWord value).perform bus).1 = { r with s := r.s - 1 - 1 } ∧
      Pushed [value.toUInt8, (value >>> 8).toUInt8] (r.s - 1 - 1) bus ((r.pushWord value).perform bus).2 := by
  have hhigh := (Pushed.nil r.s bus).cons (by decide) (value >>> 8).toUInt8
  exact ⟨rfl, hhigh.cons (show 1 < 0x100 by decide) value.toUInt8⟩

theorem vector_performs (interrupt : Interrupt) :
    Alike bus ((Exchange.word interrupt.vector).perform bus).2 := by
  have hlow : 0xFFFA ≤ interrupt.vector := by cases interrupt <;> decide
  have hhigh : 0xFFFA ≤ interrupt.vector + 1 := by cases interrupt <;> decide
  exact Alike.trans (keeps_vector bus hlow) (keeps_vector _ hhigh)

theorem enter_performs (interrupt : Interrupt) (returnAddress : UInt16) :
    let entered := (interrupt.enter returnAddress r).perform bus
    (∃ handler, entered.1 =
      { r with s := r.s - 1 - 1 - 1, pc := handler, p := { r.p with interruptDisable := true } }) ∧
      Pushed [{ r.p with breakMark := interrupt.pushesBreak }.toByte, returnAddress.toUInt8,
        (returnAddress >>> 8).toUInt8] (r.s - 1 - 1 - 1) bus entered.2 := by
  intro entered
  obtain ⟨-, hword⟩ := pushWord_performs r bus returnAddress
  have hframe := hword.cons (show 2 < 0x100 by decide) { r.p with breakMark := interrupt.pushesBreak }.toByte
  exact ⟨⟨_, rfl⟩, hframe.alike (vector_performs _ interrupt)⟩

theorem pull_performs :
    (r.pull.perform bus).1 = (stack bus (r.s + 1), { r with s := r.s + 1 }) ∧ Alike bus (r.pull.perform bus).2 :=
  ⟨congrArg (·, { r with s := r.s + 1 }) (pulled bus (r.s + 1)), keeps_pull bus (r.s + 1)⟩

/-- A word is pulled from the two cells above the stack pointer. -/
theorem pullWord_performs {word : UInt16} (hlow : stack bus (r.s + 1) = word.toUInt8)
    (hhigh : stack bus (r.s + 1 + 1) = (word >>> 8).toUInt8) :
    (r.pullWord.perform bus).1 = (word, { r with s := r.s + 1 + 1 }) ∧ Alike bus (r.pullWord.perform bus).2 := by
  obtain ⟨hfirst, hkept⟩ := pull_performs r bus
  obtain ⟨hsecond, hkept'⟩ := pull_performs { r with s := r.s + 1 } (r.pull.perform bus).2
  rw [hlow] at hfirst
  rw [hkept.1, hhigh] at hsecond
  unfold Registers.pullWord
  simp only [Exchange.perform_seq, hfirst, hsecond]
  exact ⟨congrArg (·, { r with s := r.s + 1 + 1 }) (word_bytes word), hkept.trans hkept'⟩

theorem rts_performs {word : UInt16} (hlow : stack bus (r.s + 1) = word.toUInt8)
    (hhigh : stack bus (r.s + 1 + 1) = (word >>> 8).toUInt8) :
    let returned := (Operation.rts.execute .none r).perform bus
    returned.1 = some { registers := { r with s := r.s + 1 + 1, pc := word + 1 } } ∧ Alike bus returned.2 := by
  obtain ⟨hword, hkept⟩ := pullWord_performs r bus hlow hhigh
  refine ⟨?_, hkept⟩
  let pulled := (r.pullWord.perform bus).1
  show some ({ registers := { pulled.2 with pc := pulled.1 + 1 } } : Effect) = _
  have hpulled : pulled = (word, { r with s := r.s + 1 + 1 }) := hword
  rw [hpulled]

theorem rti_performs {status : UInt8} {address : UInt16} (hp : stack bus (r.s + 1) = status)
    (hlow : stack bus (r.s + 1 + 1) = address.toUInt8)
    (hhigh : stack bus (r.s + 1 + 1 + 1) = (address >>> 8).toUInt8) :
    let returned := (Operation.rti.execute .none r).perform bus
    returned.1 = some { registers := { r with s := r.s + 1 + 1 + 1, p := .pulled status, pc := address } } ∧
      Alike bus returned.2 := by
  obtain ⟨hstatus, hkept⟩ := pull_performs r bus
  rw [hp] at hstatus
  let behind : Registers := { r with s := r.s + 1, p := .pulled status }
  obtain ⟨hword, hkept'⟩ := pullWord_performs behind (r.pull.perform bus).2
    ((congrFun hkept.1 _).trans hlow) ((congrFun hkept.1 _).trans hhigh)
  unfold Operation.execute
  simp only [Exchange.perform_seq, hstatus]
  refine ⟨?_, hkept.trans hkept'⟩
  let pulled := (behind.pullWord.perform (r.pull.perform bus).2).1
  show some ({ registers := { pulled.2 with pc := pulled.1 } } : Effect) = _
  have hpulled : pulled = (address, { behind with s := behind.s + 1 + 1 }) := hword
  rw [hpulled]

end StackMemory

/-! ## Entries and returns -/

/-- What puts a frame on the stack: a call, or an interrupt, as the break is one. -/
inductive Entry where
  | call (target : UInt16)
  | interrupt (kind : Interrupt)

namespace Entry

section

variable {β : Type} [Bus β]

/-- The entry as the processor makes it; the program counter is behind the operand of a call, and behind the opcode of a
break. -/
def enter (entry : Entry) (state : Processor × β) : Processor × β :=
  match entry with
  | call target => (state.1.execute .jsr (.memory target) state.2).2
  | interrupt .brk => (state.1.execute .brk .none state.2).2
  | interrupt .nmi => state.1.nmi state.2
  | interrupt .irq => (state.1.requestIrq state.2).2

/-- Only a request can be refused. -/
def Accepted (entry : Entry) (state : Processor × β) : Prop :=
  match entry with
  | interrupt .irq => (state.1.requestIrq state.2).1 = true
  | _ => True

/-- The return that matches the entry. -/
def leave (entry : Entry) (state : Processor × β) : Processor × β :=
  match entry with
  | call _ => (state.1.execute .rts .none state.2).2
  | interrupt _ => (state.1.execute .rti .none state.2).2

end

/-- Where the matching return goes on; a break is followed by a byte that is skipped. -/
def returnAddress (entry : Entry) (r : Registers) : UInt16 :=
  match entry with
  | interrupt .brk => r.pc + 1
  | _ => r.pc

/-- The bytes that the entry pushes, in the order in which the return pulls them. -/
def frame (entry : Entry) (r : Registers) : List UInt8 :=
  match entry with
  | call _ => [(r.pc - 1).toUInt8, ((r.pc - 1) >>> 8).toUInt8]
  | interrupt kind =>
    [{ r.p with breakMark := kind.pushesBreak }.toByte, (entry.returnAddress r).toUInt8,
      (entry.returnAddress r >>> 8).toUInt8]

def size : Entry → Nat
  | call _ => 2
  | interrupt _ => 3

theorem length_frame (entry : Entry) (r : Registers) : (entry.frame r).length = entry.size := by
  cases entry <;> rfl

end Entry

/-- A pulled copy of P is P, but for the B bit that was pushed with it. -/
theorem Status.pulled_toByte {p : Status} (h : p.reserved = true) : Status.pulled p.toByte = p := by
  rw [pulled, ofByte_toByte, ← h]

namespace Processor

variable {β : Type} [Bus β]

theorem execute_some {cpu : Processor} {operation : Operation} {operand : Operand} {bus : β} {effect : Effect}
    (h : ((operation.execute operand cpu.registers).perform bus).1 = some effect) :
    (cpu.execute operation operand bus).2.1.registers = effect.registers ∧
      (cpu.execute operation operand bus).2.2 = ((operation.execute operand cpu.registers).perform bus).2 := by
  unfold execute
  simp only [exchange_eq, h, settle, and_self]

theorem nmi_performs (cpu : Processor) (bus : β) :
    (cpu.nmi bus).1.registers = ((Interrupt.nmi.enter cpu.registers.pc cpu.registers).perform bus).1 ∧
      (cpu.nmi bus).2 = ((Interrupt.nmi.enter cpu.registers.pc cpu.registers).perform bus).2 := by
  unfold nmi
  simp only [exchange_eq, note_registers, and_self]

theorem requestIrq_performs {cpu : Processor} {bus : β} (h : (cpu.requestIrq bus).1 = true) :
    (cpu.requestIrq bus).2.1.registers = ((Interrupt.irq.enter cpu.registers.pc cpu.registers).perform bus).1 ∧
      (cpu.requestIrq bus).2.2 = ((Interrupt.irq.enter cpu.registers.pc cpu.registers).perform bus).2 := by
  unfold requestIrq at h ⊢
  split at h
  · cases h
  · rename_i hunmasked
    rw [if_neg hunmasked]
    simp only [exchange_eq, note_registers, and_self]

end Processor

/-- The same A, X and Y. -/
def Registers.SameData (r r' : Registers) : Prop := r'.a = r.a ∧ r'.x = r.x ∧ r'.y = r.y

namespace Entry

open StackMemory

variable {β : Type} [Bus β] [StackMemory β]

/-- What an entry made of the registers and the bus. -/
structure Enters (entry : Entry) (r r' : Registers) (bus bus' : β) : Prop where
  pointer : r.s = r'.s + UInt8.ofNat entry.size
  pushes : Pushed (entry.frame r) r'.s bus bus'
  data : r.SameData r'
  reserved : r.Reserved → r'.Reserved

theorem interrupt_enters {kind : Interrupt} {returnAddress : UInt16} {r r' : Registers} {bus bus' : β}
    (hreturn : (interrupt kind).returnAddress r = returnAddress)
    (hr : r' = ((kind.enter returnAddress r).perform bus).1)
    (hbus : bus' = ((kind.enter returnAddress r).perform bus).2) :
    (interrupt kind).Enters r r' bus bus' := by
  obtain ⟨⟨handler, hregisters⟩, hpushed⟩ := enter_performs r bus kind returnAddress
  have hpointer : r.s = r.s - 1 - 1 - 1 + UInt8.ofNat 3 := by
    rw [cell_succ, cell_succ, cell_succ]
    exact (UInt8.add_zero r.s).symm
  subst hreturn hr hbus
  rw [hregisters]
  exact ⟨hpointer, hpushed, ⟨rfl, rfl, rfl⟩, id⟩

/-- **An accepted entry pushes its frame**, and changes nothing else but the program counter and I. -/
theorem enter_pushes (entry : Entry) (state : Processor × β) (h : entry.Accepted state) :
    entry.Enters state.1.registers (entry.enter state).1.registers state.2 (entry.enter state).2 := by
  obtain ⟨cpu, bus⟩ := state
  match entry with
  | call target =>
    have hperform : ((Operation.jsr.execute (.memory target) cpu.registers).perform bus).1 = some _ := rfl
    obtain ⟨hr, hbus⟩ := Processor.execute_some hperform
    obtain ⟨-, hpushed⟩ := pushWord_performs cpu.registers bus (cpu.registers.pc - 1)
    have hpointer : cpu.registers.s = cpu.registers.s - 1 - 1 + UInt8.ofNat 2 := by
      rw [cell_succ, cell_succ]
      exact (UInt8.add_zero cpu.registers.s).symm
    show Enters _ _ (cpu.execute .jsr (.memory target) bus).2.1.registers _ (cpu.execute .jsr (.memory target) bus).2.2
    rw [hr, hbus]
    exact ⟨hpointer, hpushed, ⟨rfl, rfl, rfl⟩, id⟩
  | interrupt .brk =>
    have hperform : ((Operation.brk.execute .none cpu.registers).perform bus).1 = some _ := rfl
    obtain ⟨hr, hbus⟩ := Processor.execute_some hperform
    exact interrupt_enters rfl hr hbus
  | interrupt .nmi =>
    obtain ⟨hr, hbus⟩ := cpu.nmi_performs bus
    exact interrupt_enters rfl hr hbus
  | interrupt .irq =>
    obtain ⟨hr, hbus⟩ := Processor.requestIrq_performs h
    exact interrupt_enters rfl hr hbus

/-- What a return made of the registers and the bus, when `r` were the registers of the matching entry. -/
structure Leaves (entry : Entry) (r r' r'' : Registers) (bus bus' : β) : Prop where
  pointer : r''.s = r'.s + UInt8.ofNat entry.size
  pc : r''.pc = entry.returnAddress r
  status : ∀ kind, entry = interrupt kind → r.Reserved → r''.p = { r.p with breakMark := kind.pushesBreak }
  data : r'.SameData r''
  reserved : r'.Reserved → r''.Reserved
  alike : Alike bus bus'

/-- **A return that finds a frame goes back to where its entry came from.** -/
theorem leave_pulls (entry : Entry) (r : Registers) (state : Processor × β)
    (h : ∀ n (h : n < (entry.frame r).length),
      stack state.2 (state.1.registers.s + UInt8.ofNat (n + 1)) = (entry.frame r)[n]) :
    entry.Leaves r state.1.registers (entry.leave state).1.registers state.2 (entry.leave state).2 := by
  obtain ⟨cpu, bus⟩ := state
  have hnext (s : UInt8) (n : Nat) : s + UInt8.ofNat n + 1 = s + UInt8.ofNat (n + 1) := by
    rw [UInt8.ofNat_add, ← UInt8.add_assoc]
    rfl
  have hsecond : cpu.registers.s + 1 + 1 = cpu.registers.s + UInt8.ofNat 2 := hnext _ 1
  have hthird : cpu.registers.s + 1 + 1 + 1 = cpu.registers.s + UInt8.ofNat 3 := hsecond ▸ hnext _ 2
  cases entry with
  | call target =>
    have hlow : stack bus (cpu.registers.s + 1) = (r.pc - 1).toUInt8 := h 0 (show 0 < 2 by decide)
    have hhigh : stack bus (cpu.registers.s + 1 + 1) = ((r.pc - 1) >>> 8).toUInt8 :=
      hsecond ▸ h 1 (show 1 < 2 by decide)
    obtain ⟨hreturned, hkept⟩ := rts_performs cpu.registers bus hlow hhigh
    obtain ⟨hr, hbus⟩ := Processor.execute_some hreturned
    show Leaves _ _ _ (cpu.execute .rts .none bus).2.1.registers _ (cpu.execute .rts .none bus).2.2
    rw [hr, hbus]
    exact ⟨hsecond, UInt16.sub_add_cancel _ _, nofun, ⟨rfl, rfl, rfl⟩, id, hkept⟩
  | interrupt kind =>
    let status := { r.p with breakMark := kind.pushesBreak }
    let address := (interrupt kind).returnAddress r
    have hp : stack bus (cpu.registers.s + 1) = status.toByte := h 0 (show 0 < 3 by decide)
    have hlow : stack bus (cpu.registers.s + 1 + 1) = address.toUInt8 := hsecond ▸ h 1 (show 1 < 3 by decide)
    have hhigh : stack bus (cpu.registers.s + 1 + 1 + 1) = (address >>> 8).toUInt8 :=
      hthird ▸ h 2 (show 2 < 3 by decide)
    obtain ⟨hreturned, hkept⟩ := rti_performs cpu.registers bus hp hlow hhigh
    obtain ⟨hr, hbus⟩ := Processor.execute_some hreturned
    show Leaves _ _ _ (cpu.execute .rti .none bus).2.1.registers _ (cpu.execute .rti .none bus).2.2
    rw [hr, hbus]
    refine ⟨hthird, rfl, ?_, ⟨rfl, rfl, rfl⟩, fun _ => rfl, hkept⟩
    rintro _ ⟨⟩ hreserved
    exact Status.pulled_toByte hreserved

end Entry
end NesConsole
