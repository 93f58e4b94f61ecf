import NesConsole.Proofs.Console.Destinations
import NesConsole.Proofs.FlatMemory
import NesConsole.Proofs.Processor.StackPage
import NesConsole.Proofs.Processor.Stages
/-!
# Nested calls and interrupts

Calls and interrupts nest: what happens between an entry and its return may enter and return itself.  As long as no more
than a page is outstanding, the cells above the stack pointer are not disturbed in the meantime, so every return finds the
frame of its entry (`Balanced.enclose`), on flat memory and on a console's bus alike.  What comes of each entry is told
at the end (`Nested.restores`).
-/
namespace NesConsole

/-! ## The stack pages of the two buses -/

theorem stackPage_inj {s s' : UInt8} :
    Registers.stackPage + s.toUInt16 = Registers.stackPage + s'.toUInt16 ↔ s = s' := by
  rw [← UInt16.toNat_inj, ← UInt8.toNat_inj, toNat_stackPage, toNat_stackPage, Nat.add_left_cancel_iff]

/-- The rest of flat memory is what its other pages hold. -/
instance : StackMemory FlatMemory where
  stack memory s := memory.get (Registers.stackPage + s.toUInt16)
  Rest := { address : UInt16 // address.toNat / 0x100 ≠ 1 } → UInt8
  rest memory address := memory.get address
  pulled _ _ := rfl
  keeps_pull _ _ := ⟨rfl, rfl⟩
  keeps_vector _ _ _ := ⟨rfl, rfl⟩
  pushed memory s value s' := by
    simp only [FlatMemory.get_write, stackPage_inj]
  keeps_push memory s value := by
    funext ⟨address, hpage⟩
    have hlt : s.toNat < 0x100 := s.toNat_lt
    have hother : address ≠ Registers.stackPage + s.toUInt16 := by
      rintro rfl
      rw [toNat_stackPage] at hpage
      omega
    exact (memory.get_write _ _ _).trans (if_neg hother)

namespace ConsoleBus

variable {π : Type} [VideoUnit π]

theorem stack_lt (s : UInt8) : (Registers.stackPage + s.toUInt16).toNat < 0x2000 := by
  have hlt : s.toNat < 0x100 := s.toNat_lt
  rw [toNat_stackPage]
  omega

/-- A cell of the stack page is one of work RAM. -/
def stackIndex (s : UInt8) : Fin workRamSize := ramIndex (Registers.stackPage + s.toUInt16)

theorem stackIndex_val (s : UInt8) : (stackIndex s).val = 0x100 + s.toNat := by
  have hlt : s.toNat < 0x100 := s.toNat_lt
  show (Registers.stackPage + s.toUInt16).toNat % 0x800 = 0x100 + s.toNat
  rw [toNat_stackPage]
  omega

theorem write_stack (bus : ConsoleBus π) (s value : UInt8) :
    Bus.write bus (Registers.stackPage + s.toUInt16) value = { bus with ram := bus.ram.set (stackIndex s) value } := by
  have hlt := stack_lt s
  show bus.write _ _ = _
  rw [write, bus.claims_below (by omega), if_neg Bool.false_ne_true, store, if_pos (UInt16.lt_iff_toNat_lt.2 hlt)]
  rfl

end ConsoleBus

open ConsoleBus in
/-- The rest of a console's bus is work RAM without the stack page, and all that is connected. -/
instance {π : Type} [VideoUnit π] : StackMemory (ConsoleBus π) where
  stack bus s := bus.ram[stackIndex s]
  Rest := ({ index : Fin workRamSize // index.val / 0x100 ≠ 1 } → UInt8) × π × Apu × Option Cartridge × UInt32
  rest bus := (fun index => bus.ram[index.val], bus.video, bus.apu, bus.cartridge, bus.stall)
  pulled bus s := bus.read_ram (stack_lt s)
  keeps_pull bus s := by
    rw [bus.read_quiet (.inl (UInt16.lt_iff_toNat_lt.2 (stack_lt s)))]
    exact ⟨rfl, rfl⟩
  keeps_vector bus address h := by
    have hspace : 0x4020 ≤ address := UInt16.le_trans (by decide) h
    rw [bus.read_quiet (.inr hspace)]
    exact ⟨rfl, rfl⟩
  pushed bus s value s' := by
    rw [write_stack]
    show (bus.ram.set (stackIndex s) value)[stackIndex s'] = _
    have hsame : (stackIndex s).val = (stackIndex s').val ↔ s' = s := by
      rw [stackIndex_val, stackIndex_val, Nat.add_left_cancel_iff, UInt8.toNat_inj, eq_comm]
    simp only [Fin.getElem_fin, Vector.getElem_set, hsame]
  keeps_push bus s value := by
    rw [write_stack]
    refine Prod.ext (funext fun index => ?_) rfl
    have hlt : s.toNat < 0x100 := s.toNat_lt
    have hother : (stackIndex s).val ≠ index.val.val := by
      have hpage := index.property
      rw [stackIndex_val]
      omega
    exact Vector.getElem_set_ne (stackIndex s).isLt index.val.isLt hother

/-! ## Nesting -/

/-- One entry, before it was made, and where the processor and the bus were after its return. -/
structure Bracket (β : Type) where
  entry : Entry
  before : Processor × β
  after : Processor × β

/-- The return went back: to the stack pointer and the program counter, and from an interrupt also to P, up to the B bit,
which a break leaves set and a requested interrupt clear. -/
structure Bracket.Restored {β : Type} (bracket : Bracket β) : Prop where
  pointer : bracket.after.1.registers.s = bracket.before.1.registers.s
  pc : bracket.after.1.registers.pc = bracket.entry.returnAddress bracket.before.1.registers
  status : ∀ kind, bracket.entry = .interrupt kind →
    bracket.after.1.registers.p = { bracket.before.1.registers.p with breakMark := decide (kind = .brk) }

section

variable {β : Type} [Bus β]

/-- What can happen while the stack has room for so many more bytes, with all entries that were made in it: nothing,
something else first, or first an accepted entry, what is nested in it, and its return. -/
inductive Nested (other : Processor × β → Processor × β → Prop) :
    Nat → Processor × β → List (Bracket β) → Processor × β → Prop where
  | idle (room : Nat) (state : Processor × β) : Nested other room state [] state
  | meanwhile {room : Nat} {before between after : Processor × β} {brackets : List (Bracket β)}
      (hother : other before between) (rest : Nested other room between brackets after) :
      Nested other room before brackets after
  | enclose {room : Nat} {before inside after : Processor × β} {inner outer : List (Bracket β)} (entry : Entry)
      (hroom : entry.size ≤ room) (haccepted : entry.Accepted before)
      (body : Nested other (room - entry.size) (entry.enter before) inner inside)
      (rest : Nested other room (entry.leave inside) outer after) :
      Nested other room before (⟨entry, before, entry.leave inside⟩ :: inner ++ outer) after

variable [StackMemory β]

open StackMemory

/-- What leaves the stack alone: its pointer and its page, and the reserved bit with them. -/
structure LeavesStack (before after : Processor × β) : Prop where
  pointer : after.1.registers.s = before.1.registers.s
  page : stack after.2 = stack before.2
  reserved : before.1.registers.Reserved → after.1.registers.Reserved

/-- The same A, X and Y, and the same memory but for the stack page. -/
def KeepsData (before after : Processor × β) : Prop :=
  before.1.registers.SameData after.1.registers ∧ rest after.2 = rest before.2

theorem KeepsData.trans {before between after : Processor × β} (h : KeepsData before between)
    (h' : KeepsData between after) : KeepsData before after :=
  ⟨⟨h'.1.1.trans h.1.1, h'.1.2.1.trans h.1.2.1, h'.1.2.2.trans h.1.2.2⟩, h'.2.trans h.2⟩

/-- What nesting with so much room on the stack comes to. -/
structure Balanced (other : Processor × β → Processor × β → Prop) (room : Nat) (before : Processor × β)
    (brackets : List (Bracket β)) (after : Processor × β) : Prop where
  restored : ∀ bracket ∈ brackets, bracket.Restored
  pointer : after.1.registers.s = before.1.registers.s
  reserved : after.1.registers.Reserved
  /-- The cells above the stack pointer keep their bytes, as far as the room does not come round to them. -/
  undisturbed : ∀ n, 0 < n → n + room ≤ 0x100 →
    stack after.2 (before.1.registers.s + UInt8.ofNat n) = stack before.2 (before.1.registers.s + UInt8.ofNat n)
  data : (∀ before after, other before after → KeepsData before after) → KeepsData before after

namespace Balanced

variable {other : Processor × β → Processor × β → Prop} {room : Nat} {before inside after : Processor × β}
  {inner outer brackets : List (Bracket β)}

theorem idle (hreserved : before.1.registers.Reserved) : Balanced other room before [] before where
  restored _ hmem := absurd hmem List.not_mem_nil
  pointer := rfl
  reserved := hreserved
  undisturbed _ _ _ := rfl
  data _ := ⟨⟨rfl, rfl, rfl⟩, rfl⟩

theorem meanwhile {between : Processor × β} (hleft : LeavesStack before between) (hdone : other before between)
    (h : Balanced other room between brackets after) : Balanced other room before brackets after where
  restored := h.restored
  pointer := h.pointer.trans hleft.pointer
  reserved := h.reserved
  undisturbed n hpos hn := by rw [← hleft.pointer, h.undisturbed n hpos hn, hleft.page]
  data hkeeps := (hkeeps _ _ hdone).trans (h.data hkeeps)

/-- **An entry and its return around what is balanced**: the room that is left lies below the frame, so the frame is among
the cells that are not disturbed, and the return finds it. -/
theorem enclose {entry : Entry} (hroom : room ≤ 0x100) (hfits : entry.size ≤ room)
    (haccepted : entry.Accepted before) (hreserved : before.1.registers.Reserved)
    (hbody : Balanced other (room - entry.size) (entry.enter before) inner inside)
    (hrest : (entry.leave inside).1.registers.Reserved →
      Balanced other room (entry.leave inside) outer after) :
    Balanced other room before (⟨entry, before, entry.leave inside⟩ :: inner ++ outer) after := by
  have hentered := entry.enter_pushes before haccepted
  have hlength := entry.length_frame before.1.registers
  have hframe (n : Nat) (h : n < (entry.frame before.1.registers).length) :
      stack inside.2 (inside.1.registers.s + UInt8.ofNat (n + 1)) = (entry.frame before.1.registers)[n] := by
    rw [hbody.pointer, hbody.undisturbed (n + 1) (Nat.succ_pos n) (by omega)]
    exact hentered.pushes.frame n h
  have hleft := entry.leave_pulls before.1.registers inside hframe
  have hback : (entry.leave inside).1.registers.s = before.1.registers.s := by
    rw [hleft.pointer, hbody.pointer, hentered.pointer]
  have hafter := hrest (hleft.reserved hbody.reserved)
  constructor
  case restored =>
    intro bracket hmem
    obtain rfl | hmem := List.mem_cons.1 hmem
    · refine ⟨hback, hleft.pc, fun kind heq => ?_⟩
      rw [← kind.pushesBreak_eq]
      exact hleft.status kind heq hreserved
    · exact (List.mem_append.1 hmem).elim (hbody.restored bracket) (hafter.restored bracket)
  case pointer => exact hafter.pointer.trans hback
  case reserved => exact hafter.reserved
  case undisturbed =>
    intro n hpos hn
    have hcell : before.1.registers.s + UInt8.ofNat n =
        (entry.enter before).1.registers.s + UInt8.ofNat (entry.size + n) := by
      rw [hentered.pointer, UInt8.ofNat_add, UInt8.add_assoc]
    rw [← hback, hafter.undisturbed n hpos hn, hleft.alike.1, hback, hcell,
      hbody.undisturbed (entry.size + n) (by omega) (by omega)]
    exact hentered.pushes.above _ (by omega) (by omega)
  case data =>
    intro hkeeps
    have hinto : KeepsData before (entry.enter before) := ⟨hentered.data, hentered.pushes.rest⟩
    have hout : KeepsData inside (entry.leave inside) := ⟨hleft.data, hleft.alike.2⟩
    exact ((hinto.trans (hbody.data hkeeps)).trans hout).trans (hafter.data hkeeps)

end Balanced

namespace Nested

variable {other : Processor × β → Processor × β → Prop} {room : Nat} {before after : Processor × β}
  {brackets : List (Bracket β)}

/-- Whatever is nested is balanced, by induction on the nesting. -/
theorem balanced (hother : ∀ before after, other before after → LeavesStack before after) (hroom : room ≤ 0x100)
    (hreserved : before.1.registers.Reserved) (h : Nested other room before brackets after) :
    Balanced other room before brackets after := by
  induction h with
  | idle room state => exact .idle hreserved
  | meanwhile hdone rest ih =>
    have hleft := hother _ _ hdone
    exact .meanwhile hleft hdone (ih hroom (hleft.reserved hreserved))
  | enclose entry hfits haccepted body rest ihbody ihrest =>
    have hentered := entry.enter_pushes _ haccepted
    have hbody := ihbody (Nat.le_trans (Nat.sub_le _ _) hroom) (hentered.reserved hreserved)
    exact .enclose hroom hfits haccepted hreserved hbody (ihrest hroom)

/-- **Calls and interrupts return where they came from**, at every depth of nesting and wherever the stack pointer
starts, as long as no more than 256 bytes are outstanding and nothing else writes to the stack; and what nothing else
changes, A, X, Y and all memory but the stack page, is in the end what it was. -/
theorem restores (hother : ∀ before after, other before after → LeavesStack before after)
    (hreserved : before.1.registers.Reserved) (h : Nested other 0x100 before brackets after) :
    (∀ bracket ∈ brackets, bracket.Restored) ∧ after.1.registers.s = before.1.registers.s ∧
      ((∀ before after, other before after → KeepsData before after) → KeepsData before after) := by
  have hbalanced := h.balanced hother (Nat.le_refl _) hreserved
  exact ⟨hbalanced.restored, hbalanced.pointer, hbalanced.data⟩

/-- A break in a call and an interrupt in the break, on either bus, with frames that come round at the end of the stack
page.  The break returns behind the byte it skips and leaves the B bit set; the interrupt had left it clear. -/
theorem restores_wraps :
    let cpu := Processor.starting { a := 0x42, s := 0x01, pc := 0x1234, p := { carry := true, reserved := true } }
    let call := Entry.call 0x8000
    let brk := Entry.interrupt .brk
    let nmi := Entry.interrupt .nmi
    let Returns {β : Type} [Bus β] (bus : β) : Prop :=
      let called := call.enter (cpu, bus)
      let inside := brk.enter called
      let resumed := nmi.leave (nmi.enter inside)
      let broken := brk.leave resumed
      let r := (call.leave broken).1.registers
      resumed.1.registers.p = { carry := true, interruptDisable := true, reserved := true } ∧
        broken.1.registers.p = { carry := true, breakMark := true, reserved := true } ∧ broken.1.registers.pc = 0x8001 ∧
        r.pc = 0x1234 ∧ r.s = 0x01 ∧ r.a = 0x42
    Returns ({} : FlatMemory) ∧ Returns ({ video := { value := 0 } } : ConsoleBus VideoLatch) := by
  intro cpu call brk nmi Returns
  have hreturns {β : Type} [Bus β] [StackMemory β] (bus : β) : Returns bus := by
    unfold Returns
    intro called inside resumed broken r
    have hinner : Nested (fun _ _ => False) 0xFB inside [⟨nmi, inside, resumed⟩] resumed :=
      .enclose nmi (show 3 ≤ 0xFB by decide) trivial (.idle _ _) (.idle _ _)
    have hbreak : Nested (fun _ _ => False) 0xFE called [⟨brk, called, broken⟩, ⟨nmi, inside, resumed⟩] broken :=
      .enclose brk (show 3 ≤ 0xFE by decide) trivial hinner (.idle _ _)
    have hnested : Nested (fun _ _ => False) 0x100 (cpu, bus)
        [⟨call, (cpu, bus), call.leave broken⟩, ⟨brk, called, broken⟩, ⟨nmi, inside, resumed⟩] (call.leave broken) :=
      .enclose call (show 2 ≤ 0x100 by decide) trivial hbreak (.idle _ _)
    have hreserved : cpu.registers.Reserved := show cpu.registers.p.reserved = true from rfl
    obtain ⟨hrestored, hpointer, hdata⟩ := hnested.restores (fun _ _ => False.elim) hreserved
    obtain ⟨hcall, hrestored⟩ := List.forall_mem_cons.1 hrestored
    obtain ⟨hbroken, hrestored⟩ := List.forall_mem_cons.1 hrestored
    have hresumed := hrestored _ (List.mem_singleton_self _)
    have hcalledP : called.1.registers.p = { carry := true, reserved := true } := rfl
    have hinsideP : inside.1.registers.p = { carry := true, interruptDisable := true, reserved := true } := rfl
    have hresumedP : resumed.1.registers.p = { inside.1.registers.p with breakMark := false } :=
      hresumed.status .nmi rfl
    have hbrokenP : broken.1.registers.p = { called.1.registers.p with breakMark := true } :=
      hbroken.status .brk rfl
    rw [hinsideP] at hresumedP
    rw [hcalledP] at hbrokenP
    exact ⟨hresumedP, hbrokenP, hbroken.pc, hcall.pc, hpointer, (hdata fun _ _ => False.elim).1.1⟩
  exact ⟨hreturns _, hreturns _⟩

end Nested

end
end NesConsole
