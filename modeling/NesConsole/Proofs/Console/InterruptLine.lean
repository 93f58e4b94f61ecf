import NesConsole.Proofs.Console.Run
import NesConsole.Proofs.Snapshot.Loadable
/-!
# The interrupt line

The sound unit and the board raise one latched line, and the processor takes the interrupt when it next may.  A sequence
of actions is followed moment by moment, a run being the steps it takes (`Console.moments`).  One moment lowers the line
only by an entry, a reset or a load, and raises it only by a tick or a load (`Moment.falls` and `Moment.rises`).  So what
ticks raise is taken at most once: over actions that are no resets and no loads, entries and raising ticks balance, up to
the line's first and last state (`Console.moments_balance`).  A load can leave the line up, and then one entry more is
due than ticks raised.
-/
namespace NesConsole

/-! ## Entering the interrupt -/

namespace Registers

/-- The registers behind the entry of a requested interrupt, whose handler stands at the vector. -/
def interrupted (r : Registers) (low high : UInt8) : Registers :=
  { r with s := r.s - 3, pc := high.toUInt16 <<< 8 ||| low.toUInt16, p := { r.p with interruptDisable := true } }

/-- What the entry asks of a bus: the program counter and P without its B bit are pushed, and the vector is read. -/
def entryAccesses (r : Registers) (low high : UInt8) : List Access :=
  [.write (stackPage + r.s.toUInt16) (r.pc >>> 8).toUInt8, .write (stackPage + (r.s - 1).toUInt16) r.pc.toUInt8,
    .write (stackPage + (r.s - 2).toUInt16) { r.p with breakMark := false }.toByte,
    .read 0xFFFE low, .read 0xFFFF high]

end Registers

theorem Interrupt.irq_enter {β : Type} [Bus β] (r : Registers) (bus : β) :
    ∃ low high, (irq.enter r.pc r).accesses bus = r.entryAccesses low high ∧
      ((irq.enter r.pc r).perform bus).1 = r.interrupted low high := by
  have htwice : r.s - 1 - 1 = r.s - 2 := by grind
  have hthrice : r.s - 1 - 1 - 1 = r.s - 3 := by grind
  unfold Registers.entryAccesses Registers.interrupted
  rw [← htwice, ← hthrice]
  exact ⟨_, _, rfl, rfl⟩

theorem Processor.requestIrq_accepted {β : Type} [Bus β] {cpu : Processor} (bus : β)
    (h : cpu.registers.p.interruptDisable = false) :
    let r := cpu.registers
    let requested := cpu.requestIrq bus
    ∃ low high, (Interrupt.irq.enter r.pc r).accesses bus = r.entryAccesses low high ∧ requested.1 = true ∧
      requested.2.1.registers = r.interrupted low high ∧
      requested.2.2 = ((Interrupt.irq.enter r.pc r).perform bus).2 := by
  obtain ⟨low, high, haccesses, hregisters⟩ := Interrupt.irq_enter cpu.registers bus
  refine ⟨low, high, haccesses, ?_⟩
  unfold requestIrq
  rw [if_neg (by rw [h]; decide)]
  simp only [exchange_eq, note_registers]
  exact ⟨trivial, hregisters, trivial⟩

theorem Processor.requestIrq_refused {β : Type} [Bus β] {cpu : Processor} (bus : β)
    (h : cpu.registers.p.interruptDisable = true) : cpu.requestIrq bus = (false, cpu, bus) :=
  if_pos h

namespace Console

variable {π : Type} [VideoUnit π]

omit [VideoUnit π] in
/-- Whether a step begins by entering the pending interrupt. -/
def takesIrq (console : Console π) : Bool :=
  !console.cpu.paused && console.irq && !console.cpu.registers.p.interruptDisable

/-- The step enters the interrupt, once and for seven cycles, and then executes one instruction. -/
def EntersIrq (console : Console π) : Prop :=
  let r := console.cpu.registers
  let entry := Interrupt.irq.enter r.pc r
  let requested := console.cpu.requestIrq console.bus
  let executed := requested.2.1.step requested.2.2
  let spent := 7 + UInt32.ofNat executed.1 + executed.2.2.stall
  console.cpu.paused = false ∧ r.p.interruptDisable = false ∧
    (∃ low high, entry.accesses console.bus = r.entryAccesses low high ∧
      requested.2.1.registers = r.interrupted low high ∧ requested.2.2 = (entry.perform console.bus).2) ∧
    console.step = (spent, { cpu := executed.2.1, bus := { executed.2.2 with stall := 0 }, irq := false,
                             cycles := console.cycles + spent.toUInt64 })

/-- The step executes one instruction and no more. -/
def OnlyExecutes (console : Console π) : Prop :=
  let executed := console.cpu.step console.bus
  let spent := UInt32.ofNat executed.1 + executed.2.2.stall
  console.step = (spent, { console with cpu := executed.2.1, bus := { executed.2.2 with stall := 0 },
                                        cycles := console.cycles + spent.toUInt64 })

theorem entersIrq {console : Console π} (h : console.takesIrq = true) : console.EntersIrq := by
  simp only [takesIrq, Bool.and_eq_true, Bool.not_eq_true'] at h
  obtain ⟨⟨hrunning, hraised⟩, hunmasked⟩ := h
  obtain ⟨low, high, haccesses, haccepted, hregisters, hbus⟩ :=
    Processor.requestIrq_accepted console.bus hunmasked
  refine ⟨hrunning, hunmasked, ⟨low, high, haccesses, hregisters, hbus⟩, ?_⟩
  rw [step_of_running hrunning, takeIrq_of_raised hraised]
  simp only [haccepted, if_true, Bool.not_true]

theorem onlyExecutes {console : Console π} (hrunning : console.cpu.paused = false) (h : console.takesIrq = false) :
    console.OnlyExecutes := by
  have htaken : console.takeIrq = (0, console) := by
    cases hraised : console.irq with
    | false => exact takeIrq_of_clear hraised
    | true =>
      have hmasked : console.cpu.registers.p.interruptDisable = true := by simpa [takesIrq, hrunning, hraised] using h
      rw [takeIrq_of_raised hraised, Processor.requestIrq_refused console.bus hmasked]
      obtain ⟨cpu, bus, irq, cycles⟩ := console
      cases hraised
      rfl
  unfold OnlyExecutes
  rw [step_of_running hrunning, htaken]
  simp only [UInt32.zero_add]

/-- **A step lowers the line exactly by taking the interrupt.** -/
theorem step_irq (console : Console π) : console.step.2.irq = (console.irq && !console.takesIrq) := by
  cases hrunning : console.cpu.paused with
  | true => simp [step_of_paused hrunning, takesIrq, hrunning]
  | false =>
    cases h : console.takesIrq with
    | true =>
      obtain ⟨-, -, -, hstep⟩ := entersIrq h
      simp [hstep]
    | false =>
      have hstep : console.step = _ := onlyExecutes hrunning h
      simp [hstep]

omit [VideoUnit π] in
def fires (console : Console π) (scanline : UInt16) : Bool :=
  let ticked := console.bus.hblank scanline
  ticked.1.frame || ticked.1.dmc || ticked.2.1

omit [VideoUnit π] in
theorem hblank_irq (console : Console π) (scanline : UInt16) :
    (console.hblank scanline).irq = (console.irq || console.fires scanline) := by
  unfold hblank tick fires AudioRequests.any
  simp [Bool.or_comm, Bool.or_left_comm]

end Console

/-! ## Moments -/

structure Moment (π : Type) where
  before : Console π
  action : HostAction π

/-- Whether the action resets the console or loads a snapshot. -/
def HostAction.restarts {π : Type} : HostAction π → Bool
  | reset | load _ => true
  | _ => false

namespace Moment

variable {π : Type} [VideoUnit π]

def after (moment : Moment π) : Console π :=
  (moment.before.respond moment.action).2

def enters (moment : Moment π) : Bool :=
  match moment.action with
  | .step => moment.before.takesIrq
  | _ => false

def raises (moment : Moment π) : Bool :=
  match moment.action with
  | .hblank scanline => !moment.before.irq && (moment.before.hblank scanline).irq
  | _ => false

end Moment

namespace Console

variable {π : Type} [VideoUnit π]

/-- The moments of an action, of which only a run has several. -/
def momentsOf (console : Console π) : HostAction π → List (Moment π)
  | .run budget => (List.range (console.stepsIn budget)).map fun i => { before := console.stepped i, action := .step }
  | action => [{ before := console, action }]

/-- The moments of a sequence of actions. -/
def moments : Console π → List (HostAction π) → List (Moment π)
  | _, [] => []
  | console, action :: actions => console.momentsOf action ++ (console.respond action).2.moments actions

def following : Console π → List (HostAction π) → Console π
  | console, [] => console
  | console, action :: actions => (console.respond action).2.following actions

theorem respond_irq (console : Console π) {action : HostAction π} (h : ∀ budget, action ≠ .run budget) :
    (console.respond action).2.irq =
      match action with
      | .step => console.irq && !console.takesIrq
      | .hblank scanline => console.irq || console.fires scanline
      | .reset => false
      | .load s => (console.load s).toOption.elim console.irq Console.irq
      | _ => console.irq := by
  cases action with
  | step => exact console.step_irq
  | run budget => exact absurd rfl (h budget)
  | hblank scanline => exact console.hblank_irq scanline
  | load s =>
    simp only [respond]
    cases console.load s <;> rfl
  | reset | nmi | press | pause | read | write | writePattern | setBreakpoints | setWatchpoints | attachVideo | assign =>
    rfl

omit [VideoUnit π] in
theorem load_irq {console console' : Console π} {s : Snapshot} (h : console.load s = .ok console') :
    console'.irq = s.irqPending := by
  obtain ⟨-, h⟩ := load_ok h
  obtain ⟨-, -, -, -, -, -, rfl⟩ := loadContents_ok h
  rfl

theorem mem_momentsOf {console : Console π} {action : HostAction π} {moment : Moment π}
    (h : moment ∈ console.momentsOf action) (budget : Nat) : moment.action ≠ .run budget := by
  cases action with
  | run =>
    obtain ⟨i, -, rfl⟩ := List.mem_map.1 h
    simp
  | _ =>
    obtain rfl := List.mem_singleton.1 h
    simp

theorem mem_moments {console : Console π} {actions : List (HostAction π)} {moment : Moment π}
    (h : moment ∈ console.moments actions) (budget : Nat) : moment.action ≠ .run budget := by
  induction actions generalizing console with
  | nil => cases h
  | cons action actions ih =>
    obtain h | h := List.mem_append.1 h
    · exact mem_momentsOf h budget
    · exact ih h

end Console

namespace Moment

variable {π : Type} [VideoUnit π] {moment : Moment π}

/-- A load moves the line only if it is accepted, and then to where the snapshot has it. -/
theorem load_moves (console : Console π) {s : Snapshot} (h : (console.respond (.load s)).2.irq ≠ console.irq) :
    console.load s = .ok (console.respond (.load s)).2 ∧ s.irqPending = (console.respond (.load s)).2.irq := by
  simp only [Console.respond] at h ⊢
  cases hl : console.load s with
  | error e => exact absurd (by rw [hl]) h
  | ok console' => exact ⟨rfl, (Console.load_irq hl).symm⟩

/-- **The line falls only** in a step that enters the interrupt, in a reset, or in a load of a snapshot without a pending
interrupt. -/
theorem falls (h : ∀ budget, moment.action ≠ .run budget) (hup : moment.before.irq = true)
    (hdown : moment.after.irq = false) :
    (moment.action = .step ∧ moment.before.EntersIrq) ∨ moment.action = .reset ∨
      ∃ s, moment.action = .load s ∧ moment.before.load s = .ok moment.after ∧ s.irqPending = false := by
  obtain ⟨before, action⟩ := moment
  change before.irq = true at hup
  change (before.respond action).2.irq = false at hdown
  have hafter := before.respond_irq h
  rw [hdown] at hafter
  cases action with
  | step =>
    left
    refine ⟨rfl, Console.entersIrq ?_⟩
    simpa [hup] using hafter.symm
  | reset =>
    right
    left
    rfl
  | load s =>
    right
    right
    obtain ⟨hloaded, hpending⟩ := load_moves before (by rw [hdown, hup]; decide)
    exact ⟨s, rfl, hloaded, hpending.trans hdown⟩
  | run budget => exact absurd rfl (h budget)
  | _ => simp [hup] at hafter

/-- **The line rises only** in a tick in which a source fires, or in a load of a snapshot with a pending interrupt. -/
theorem rises (h : ∀ budget, moment.action ≠ .run budget) (hdown : moment.before.irq = false)
    (hup : moment.after.irq = true) :
    (∃ scanline, moment.action = .hblank scanline ∧ moment.before.fires scanline = true) ∨
      ∃ s, moment.action = .load s ∧ moment.before.load s = .ok moment.after ∧ s.irqPending = true := by
  obtain ⟨before, action⟩ := moment
  change before.irq = false at hdown
  change (before.respond action).2.irq = true at hup
  have hafter := before.respond_irq h
  rw [hup] at hafter
  cases action with
  | hblank scanline =>
    left
    refine ⟨scanline, rfl, ?_⟩
    simpa [hdown] using hafter.symm
  | load s =>
    right
    obtain ⟨hloaded, hpending⟩ := load_moves before (by rw [hdown, hup]; decide)
    exact ⟨s, rfl, hloaded, hpending.trans hup⟩
  | run budget => exact absurd rfl (h budget)
  | _ => simp [hdown] at hafter

/-- **What a moment that restarts nothing does to the line balances.** -/
theorem balance (moment : Moment π) (h : ∀ budget, moment.action ≠ .run budget) (hr : moment.action.restarts = false) :
    moment.enters.toNat + moment.after.irq.toNat = moment.raises.toNat + moment.before.irq.toNat := by
  obtain ⟨before, action⟩ := moment
  have hafter : (Moment.after ⟨before, action⟩).irq = _ := before.respond_irq h
  cases action with
  | step =>
    simp only [enters, raises, hafter]
    unfold Console.takesIrq
    cases before.irq <;> cases before.cpu.paused <;> cases before.cpu.registers.p.interruptDisable <;> rfl
  | hblank scanline =>
    simp only [enters, raises, hafter, Console.hblank_irq]
    cases before.irq <;> cases before.fires scanline <;> rfl
  | reset | load => cases hr
  | run budget => exact absurd rfl (h budget)
  | _ => simp only [enters, raises, hafter]

end Moment

namespace Console

variable {π : Type} [VideoUnit π]

omit [VideoUnit π] in
theorem countP_moment (p : Moment π → Bool) (moment : Moment π) : [moment].countP p = (p moment).toNat := by
  rw [List.countP_singleton]
  cases p moment <;> rfl

/-- Over steps entries and raising ticks balance, by induction on their number. -/
theorem stepped_balance (console : Console π) (n : Nat) :
    let steps : List (Moment π) := (List.range n).map fun i => { before := console.stepped i, action := .step }
    steps.countP Moment.enters + (console.stepped n).irq.toNat = steps.countP Moment.raises + console.irq.toNat := by
  induction n with
  | zero => simp [stepped]
  | succ n ih =>
    have hlast := Moment.balance { before := console.stepped n, action := .step } (by simp) rfl
    have hafter : Moment.after { before := console.stepped n, action := .step } = console.stepped (n + 1) :=
      (console.stepped_succ n).symm
    rw [hafter] at hlast
    dsimp only at ih hlast ⊢
    simp only [List.range_succ, List.map_append, List.map_cons, List.map_nil, List.countP_append, countP_moment]
    omega

theorem momentsOf_balance (console : Console π) {action : HostAction π} (h : action.restarts = false) :
    (console.momentsOf action).countP Moment.enters + (console.respond action).2.irq.toNat =
      (console.momentsOf action).countP Moment.raises + console.irq.toNat := by
  by_cases hrun : ∃ budget, action = .run budget
  · obtain ⟨budget, rfl⟩ := hrun
    have hstepped : (console.respond (.run budget)).2 = console.stepped (console.stepsIn budget) :=
      console.runCycles_stepped budget
    rw [hstepped]
    exact console.stepped_balance (console.stepsIn budget)
  · have hno (budget : Nat) : action ≠ .run budget := fun h => hrun ⟨budget, h⟩
    have hone : console.momentsOf action = [{ before := console, action }] := by
      cases action with
      | run budget => exact absurd rfl (hno budget)
      | _ => rfl
    rw [hone, countP_moment, countP_moment]
    exact Moment.balance _ hno h

/-- **Entries and raising ticks balance** over actions that restart nothing, up to where the line stands before and
after. -/
theorem moments_balance (console : Console π) {actions : List (HostAction π)}
    (h : ∀ action ∈ actions, action.restarts = false) :
    (console.moments actions).countP Moment.enters + (console.following actions).irq.toNat =
      (console.moments actions).countP Moment.raises + console.irq.toNat := by
  induction actions generalizing console with
  | nil => rfl
  | cons action actions ih =>
    have hfirst := console.momentsOf_balance (h action List.mem_cons_self)
    have hrest := ih (console.respond action).2 fun other hother => h other (List.mem_cons_of_mem _ hother)
    simp only [moments, following, List.countP_append]
    omega

/-- **No interrupt is lost, doubled or taken while masked.**  Over any actions the line falls only in a step of a running
console whose I flag was clear, which enters the interrupt once and then executes one instruction, in a reset, or in a
load of a snapshot without a pending interrupt; every other step enters nothing.  The line rises only in a tick in which a
source fires, or in a load of a snapshot with a pending interrupt.  Without resets and loads the entries and the line's
last state together are as many as the ticks that raised the line and its first state. -/
theorem irq_accounted (console : Console π) (actions : List (HostAction π)) :
    (∀ moment ∈ console.moments actions,
      (moment.before.irq = true → moment.after.irq = false →
        (moment.action = .step ∧ moment.before.EntersIrq) ∨ moment.action = .reset ∨
          ∃ s, moment.action = .load s ∧ moment.before.load s = .ok moment.after ∧ s.irqPending = false) ∧
      (moment.before.irq = false → moment.after.irq = true →
        (∃ scanline, moment.action = .hblank scanline ∧ moment.before.fires scanline = true) ∨
          ∃ s, moment.action = .load s ∧ moment.before.load s = .ok moment.after ∧ s.irqPending = true) ∧
      (moment.action = .step → moment.before.cpu.paused = false → moment.enters = false →
        moment.before.OnlyExecutes)) ∧
    ((∀ action ∈ actions, action.restarts = false) →
      (console.moments actions).countP Moment.enters + (console.following actions).irq.toNat =
        (console.moments actions).countP Moment.raises + console.irq.toNat) := by
  refine ⟨fun moment hmoment => ⟨?_, ?_, ?_⟩, console.moments_balance⟩
  · exact Moment.falls (mem_moments hmoment)
  · exact Moment.rises (mem_moments hmoment)
  · obtain ⟨before, action⟩ := moment
    rintro rfl hrunning hplain
    exact onlyExecutes hrunning hplain

/-- **A load can make an interrupt due that no tick raises after it**: a fresh console that takes over the snapshot of one
whose frame interrupt is pending enters the interrupt in its next step. -/
theorem entries_exceed_raises :
    let enabled : Console VideoLatch := ((initial {} false).respond (.write 0x4017 0)).2
    let saved := enabled.hblank Apu.vblankScanline
    ∃ console : Console VideoLatch, (initial {} false).load saved.save = .ok console ∧
      (console.moments [.step]).countP Moment.raises < (console.moments [.step]).countP Moment.enters := by
  intro enabled saved
  have hfresh : (initial {} false : Console VideoLatch).bus.Genuine none := ⟨Channels.Genuine.initial, .none⟩
  have hsaved : saved.bus.Genuine none := (respond_genuine hfresh (.write 0x4017 0)).hblank Apu.vblankScanline
  refine ⟨_, load_save hsaved rfl hfresh, ?_⟩
  have htakes : (takeOver (initial {} false) saved).takesIrq = true := by decide
  simp [moments, momentsOf, Moment.enters, Moment.raises, htakes]

end Console
end NesConsole
