import NesConsole.Proofs.Audio.Histories
import NesConsole.Proofs.Console.InterruptLine
import NesConsole.Proofs.Processor.Listing
import NesConsole.Proofs.Snapshot.Resume
/-!
# What the step log shows of itself

In debug mode a step lists its instruction before it executes it, and reads the instruction's bytes from the bus for
that.  Most addresses do not notice: only the byte left on the bus changes, and the opcode's own read sets that right.
A listing is quiet as long as it stays among such addresses (`ConsoleBus.ListsQuietly`), and a console whose steps list
quietly does what it would do without the log (`Console.logging_transparent`).  Where a device does notice, the log
shows: a program counter in the joypad registers shifts a pad once more for every byte listed
(`Console.logging_shifts_pad`).
-/
namespace NesConsole

/-! ## The processor -/

namespace Processor

variable {β : Type} [Bus β]

/-- The processor with the log switched off and empty. -/
def unlogged (cpu : Processor) : Processor :=
  { cpu with debug := false, history := { capacity := historyCapacity, newest := [], bounded := Nat.zero_le _ } }

theorem conclude_unlogged (cpu : Processor) (start : UInt16) (fetched : Fetched) :
    cpu.unlogged.conclude start fetched =
      ((cpu.conclude start fetched).1, (cpu.conclude start fetched).2.unlogged) := by
  cases fetched with
  | unmapped code => rfl
  | executed i behind effect pageCrossed => cases effect <;> rfl

/-- **A step does without the log what it does with it**, if the opcode is read as it would be without the listing. -/
theorem step_unlogged {cpu : Processor} {bus : β}
    (h : Bus.read (cpu.listed bus) cpu.registers.pc = Bus.read bus cpu.registers.pc) :
    cpu.unlogged.step bus = ((cpu.step bus).1, (cpu.step bus).2.1.unlogged, (cpu.step bus).2.2) := by
  have hfetched : cpu.fetched bus = cpu.unlogged.fetched bus := by
    unfold fetched
    rw [Registers.instruction_eq, Exchange.perform_seq]
    show (cpu.registers.decoded (Bus.read (cpu.listed bus) cpu.registers.pc).1).perform
      (Bus.read (cpu.listed bus) cpu.registers.pc).2 = _
    rw [h]
    rfl
  have haccesses : cpu.accesses bus = cpu.unlogged.accesses bus := by
    unfold accesses
    rw [Registers.instruction_eq, Exchange.accesses_seq, Exchange.accesses_byte]
    show .read _ (Bus.read (cpu.listed bus) cpu.registers.pc).1 ::
      (cpu.registers.decoded (Bus.read (cpu.listed bus) cpu.registers.pc).1).accesses
        (Bus.read (cpu.listed bus) cpu.registers.pc).2 = _
    rw [h]
    rfl
  have hwatched : cpu.unlogged.watched bus = (cpu.watched bus).unlogged := by
    obtain ⟨history, hnoted⟩ := cpu.noteStep_eq bus
    unfold watched
    rw [hnoted, haccesses]
    rfl
  rw [step_performed, step_performed, hwatched, hfetched]
  simp only [conclude_unlogged]
  rfl

theorem nmi_unlogged (cpu : Processor) (bus : β) :
    cpu.unlogged.nmi bus = ((cpu.nmi bus).1.unlogged, (cpu.nmi bus).2) := by
  obtain ⟨history, hnoted⟩ := cpu.note_eq ("NMI occurred at pc=" ++ hexWord cpu.registers.pc)
  unfold nmi
  dsimp only
  rw [hnoted]
  rfl

theorem requestIrq_unlogged (cpu : Processor) (bus : β) :
    cpu.unlogged.requestIrq bus =
      ((cpu.requestIrq bus).1, (cpu.requestIrq bus).2.1.unlogged, (cpu.requestIrq bus).2.2) := by
  obtain ⟨history, hnoted⟩ := cpu.note_eq ("IRQ occurred at pc=" ++ hexWord cpu.registers.pc)
  unfold requestIrq
  by_cases hmasked : cpu.registers.p.interruptDisable = true
  · rw [if_pos hmasked, if_pos (show cpu.unlogged.registers.p.interruptDisable = true from hmasked)]
  · rw [if_neg hmasked, if_neg (show ¬cpu.unlogged.registers.p.interruptDisable = true from hmasked)]
    dsimp only
    rw [hnoted]
    rfl

end Processor

/-! ## Quiet listings -/

/-- Only the status and the pad registers change when they are read. -/
theorem Apu.read_passive (apu : Apu) {address : UInt16} (h : address < 0x4015 ∨ 0x4018 ≤ address) :
    apu.read address = (0, apu) := by
  have hports : ∀ pad, ¬(Joypads.port pad < 0x4015 ∨ 0x4018 ≤ Joypads.port pad) := by decide
  rcases apu.read_cases address with ⟨rfl, -⟩ | ⟨pad, rfl, -⟩ | ⟨-, -, hread⟩
  · exact absurd h (by decide)
  · exact absurd h (hports pad)
  · exact hread

namespace ConsoleBus

variable {π : Type} [VideoUnit π] {bus : ConsoleBus π}

/-- No device notices that the address is read. -/
def Quiet (bus : ConsoleBus π) (address : UInt16) : Prop := (bus.fetch address).2 = bus

omit [VideoUnit π] in
/-- The bus with another byte left on it. -/
def latched (bus : ConsoleBus π) (lastRead : UInt8) : ConsoleBus π := { bus with lastRead }

theorem read_eq (bus : ConsoleBus π) (address : UInt16) :
    bus.read address = ((bus.fetch address).1, (bus.fetch address).2.latched (bus.fetch address).1) := rfl

/-- Only at `$4014` is the byte left on the bus seen. -/
theorem fetch_latched (bus : ConsoleBus π) (lastRead : UInt8) {address : UInt16} (h : address ≠ 0x4014) :
    (bus.latched lastRead).fetch address = ((bus.fetch address).1, (bus.fetch address).2.latched lastRead) := by
  unfold fetch
  split
  · rfl
  · split
    · rfl
    · split
      · rfl
      · rfl

theorem fetch_latch (bus : ConsoleBus π) : bus.fetch 0x4014 = (bus.lastRead, bus) := rfl

theorem Quiet.latched {address : UInt16} (h : bus.Quiet address) (lastRead : UInt8) :
    (bus.latched lastRead).Quiet address := by
  unfold Quiet
  by_cases haddress : address = 0x4014
  · rw [haddress, fetch_latch]
  · rw [fetch_latched bus lastRead haddress, show (bus.fetch address).2 = bus from h]

theorem Quiet.read {address : UInt16} (h : bus.Quiet address) :
    Bus.read bus address = ((bus.fetch address).1, bus.latched (bus.fetch address).1) := by
  show bus.read address = _
  rw [read_eq, show (bus.fetch address).2 = bus from h]

theorem Quiet.read_latched {address : UInt16} (h : bus.Quiet address) (haddress : address ≠ 0x4014) (lastRead : UInt8) :
    Bus.read (bus.latched lastRead) address = Bus.read bus address := by
  rw [(h.latched lastRead).read, h.read, fetch_latched bus lastRead haddress]
  rfl

/-- The listing of the instruction at `pc` is noticed by no device, nor by the instruction itself: one that starts at
`$4014`, where its opcode is the byte left on the bus, has no other bytes. -/
def ListsQuietly (bus : ConsoleBus π) (pc : UInt16) : Prop :=
  let size := (Instruction.decode (bus.fetch pc).1).elim 1 Instruction.size
  (∀ i < size, bus.Quiet (pc + UInt16.ofNat i)) ∧ (pc = 0x4014 → size = 1)

theorem perform_fetch_quiet {pc : UInt16} {count : Nat} (lastRead : UInt8)
    (h : ∀ i < count, bus.Quiet (pc + UInt16.ofNat i)) :
    ∃ left, ((Disassembly.fetch pc count).perform (bus.latched lastRead)).2 = bus.latched left := by
  induction count generalizing pc lastRead with
  | zero => exact ⟨lastRead, rfl⟩
  | succ count ih =>
    have hfirst : bus.Quiet pc := by simpa using h 0 (Nat.succ_pos count)
    have hrest (i : Nat) (hi : i < count) : bus.Quiet (pc + 1 + UInt16.ofNat i) := by
      have hnext := h (i + 1) (Nat.succ_lt_succ hi)
      rw [UInt16.ofNat_add, UInt16.add_comm (UInt16.ofNat i), ← UInt16.add_assoc] at hnext
      exact hnext
    obtain ⟨left, hleft⟩ := ih ((bus.latched lastRead).fetch pc).1 hrest
    refine ⟨left, ?_⟩
    rw [Disassembly.fetch, Exchange.perform_seq]
    show ((Disassembly.fetch (pc + 1) count >>= _).perform (Bus.read (bus.latched lastRead) pc).2).2 = _
    rw [Exchange.perform_seq, (hfirst.latched lastRead).read]
    exact hleft

theorem perform_line (bus : ConsoleBus π) (pc : UInt16) :
    ((Disassembly.line pc).perform bus).2 =
      ((Disassembly.fetch pc ((Instruction.decode (bus.fetch pc).1).elim 1 Instruction.size)).perform
        (Bus.read bus pc).2).2 := by
  unfold Disassembly.line
  rw [Exchange.perform_seq]
  show ((Disassembly.fetch pc _ >>= _).perform (Bus.read bus pc).2).2 = _
  rw [Exchange.perform_seq]
  rfl

/-- **After a quiet listing the opcode is read as it would have been without.** -/
theorem ListsQuietly.read {cpu : Processor} (h : bus.ListsQuietly cpu.registers.pc) :
    Bus.read (cpu.listed bus) cpu.registers.pc = Bus.read bus cpu.registers.pc := by
  unfold Processor.listed Processor.noteStep
  split
  · show Bus.read ((Disassembly.line cpu.registers.pc).perform bus).2 _ = _
    obtain ⟨hquiet, hlatch⟩ := h
    rw [perform_line]
    by_cases hpc : cpu.registers.pc = 0x4014
    · rw [hlatch hpc, hpc]
      rfl
    · have hfirst : bus.Quiet cpu.registers.pc := by
        simpa using hquiet 0 (Disassembly.size_bounds _).1
      obtain ⟨left, hleft⟩ := perform_fetch_quiet (bus.fetch cpu.registers.pc).1 hquiet
      have hread : (Bus.read bus cpu.registers.pc).2 = bus.latched (bus.fetch cpu.registers.pc).1 :=
        congrArg Prod.snd hfirst.read
      rw [hread, hleft]
      exact hfirst.read_latched hpc left
  · rfl

/-- The addresses that no device notices to be read. -/
def Passive (address : UInt16) : Prop := address < 0x2000 ∨ (0x4000 ≤ address ∧ address < 0x4015) ∨ 0x4018 ≤ address

theorem quiet_of_passive (bus : ConsoleBus π) {address : UInt16} (h : Passive address) : bus.Quiet address := by
  unfold Passive at h
  unfold Quiet fetch
  split
  · rfl
  · split
    · grind
    · split
      · rfl
      · split
        · dsimp only
          rw [Apu.read_passive bus.apu (by grind)]
        · rfl

theorem listsQuietly_of_passive (bus : ConsoleBus π) {pc : UInt16} (hpc : pc ≠ 0x4014)
    (h : ∀ i < 3, Passive (pc + UInt16.ofNat i)) : bus.ListsQuietly pc :=
  ⟨fun i hi => bus.quiet_of_passive (h i (Nat.lt_of_lt_of_le hi (Disassembly.size_bounds _).2)), fun h => absurd h hpc⟩

end ConsoleBus

/-! ## The console -/

namespace Console

variable {π : Type} [VideoUnit π]

omit [VideoUnit π] in
/-- The console with the log switched off and empty. -/
def unlogged (console : Console π) : Console π := { console with cpu := console.cpu.unlogged }

/-- The step lists its instruction quietly, where it finds it after a pending interrupt is entered. -/
def ListsQuietly (console : Console π) : Prop :=
  console.cpu.paused = false → console.takeIrq.2.bus.ListsQuietly console.takeIrq.2.cpu.registers.pc

theorem takeIrq_unlogged (console : Console π) :
    console.unlogged.takeIrq = (console.takeIrq.1, console.takeIrq.2.unlogged) := by
  cases h : console.irq with
  | false =>
    rw [takeIrq_of_clear h, takeIrq_of_clear (show console.unlogged.irq = false from h)]
  | true =>
    rw [takeIrq_of_raised h, takeIrq_of_raised (show console.unlogged.irq = true from h)]
    dsimp only
    rw [show console.unlogged.cpu.requestIrq console.unlogged.bus = _ from
      console.cpu.requestIrq_unlogged console.bus]
    rfl

theorem listsQuietly_unlogged (console : Console π) : console.unlogged.ListsQuietly ↔ console.ListsQuietly := by
  unfold ListsQuietly
  rw [takeIrq_unlogged]
  rfl

/-- **A step that lists quietly is the step that lists nothing.** -/
theorem step_unlogged {console : Console π} (h : console.ListsQuietly) :
    console.unlogged.step = (console.step.1, console.step.2.unlogged) := by
  cases hpaused : console.cpu.paused with
  | true => rw [step_of_paused hpaused, step_of_paused (show console.unlogged.cpu.paused = true from hpaused)]
  | false =>
    have hexecuted := Processor.step_unlogged (h hpaused).read
    rw [step_of_running hpaused, step_of_running (show console.unlogged.cpu.paused = false from hpaused),
      takeIrq_unlogged]
    dsimp only
    rw [show console.takeIrq.2.unlogged.cpu.step console.takeIrq.2.unlogged.bus = _ from hexecuted]
    rfl

theorem nmi_unlogged (console : Console π) : console.unlogged.nmi = console.nmi.unlogged := by
  obtain ⟨cpu, bus, irq, cycles⟩ := console
  simp only [nmi, unlogged, Processor.nmi_unlogged]

omit [VideoUnit π] in
theorem load_unlogged (console : Console π) (s : Snapshot) :
    console.unlogged.load s = unlogged <$> console.load s := by
  unfold load
  split
  · rw [loadContents_eq, loadContents_eq]
    show Except.mapError _ (_ <$> busContents console.bus s) = _
    cases busContents console.bus s <;> rfl
  · rfl

omit [VideoUnit π] in
/-- The consoles are the same but for the log. -/
def SameButLog (a b : Console π) : Prop := a.unlogged = b.unlogged

namespace SameButLog

variable {a b : Console π}

omit [VideoUnit π] in
theorem of_unlogged {γ : Type} {f : Console π → γ × Console π} (h : a.SameButLog b)
    (ha : f a.unlogged = ((f a).1, (f a).2.unlogged)) (hb : f b.unlogged = ((f b).1, (f b).2.unlogged)) :
    (f a).1 = (f b).1 ∧ (f a).2.SameButLog (f b).2 :=
  Prod.ext_iff.1 (ha.symm.trans ((congrArg f h).trans hb))

omit [VideoUnit π] in
theorem paused (h : a.SameButLog b) : a.cpu.paused = b.cpu.paused := by
  show a.unlogged.cpu.paused = b.unlogged.cpu.paused
  rw [show a.unlogged = b.unlogged from h]

theorem listsQuietly (h : a.SameButLog b) : a.ListsQuietly ↔ b.ListsQuietly := by
  rw [← a.listsQuietly_unlogged, ← b.listsQuietly_unlogged, show a.unlogged = b.unlogged from h]

theorem step (h : a.SameButLog b) (hq : a.ListsQuietly) : a.step.1 = b.step.1 ∧ a.step.2.SameButLog b.step.2 :=
  h.of_unlogged (step_unlogged hq) (step_unlogged (h.listsQuietly.1 hq))

theorem runFrom (h : a.SameButLog b) (budget steps spent : Nat)
    (hq : ∀ i < stepsFrom budget steps spent a, (a.stepped i).ListsQuietly) :
    (Console.runFrom budget steps spent a).1 = (Console.runFrom budget steps spent b).1 ∧
      (Console.runFrom budget steps spent a).2.SameButLog (Console.runFrom budget steps spent b).2 := by
  induction steps generalizing spent a b with
  | zero => exact ⟨rfl, h⟩
  | succ steps ih =>
    unfold stepsFrom at hq
    unfold Console.runFrom
    rw [← h.paused]
    by_cases hspent : budget ≤ spent
    · rw [if_pos hspent, if_pos hspent]
      exact ⟨rfl, h⟩
    rw [if_neg hspent, if_neg hspent]
    by_cases hpaused : a.cpu.paused = true
    · rw [if_pos hpaused, if_pos hpaused]
      exact ⟨rfl, h⟩
    rw [if_neg (not_or.2 ⟨hspent, hpaused⟩)] at hq
    obtain ⟨hcycles, hsame⟩ := h.step (hq 0 (Nat.succ_pos _))
    rw [if_neg hpaused, if_neg hpaused]
    dsimp only
    rw [← hcycles]
    exact ih hsame _ fun i hi => hq (i + 1) (Nat.succ_lt_succ hi)

/-- **An action that lists quietly is answered alike**, with and without the log. -/
theorem respond (h : a.SameButLog b) (action : HostAction π)
    (hq : ∀ moment ∈ a.momentsOf action, moment.action = .step → moment.before.ListsQuietly) :
    (a.respond action).1 = (b.respond action).1 ∧ (a.respond action).2.SameButLog (b.respond action).2 := by
  cases action with
  | step =>
    obtain ⟨hcycles, hsame⟩ := h.step (hq _ List.mem_cons_self rfl)
    exact ⟨congrArg Answer.spent hcycles, hsame⟩
  | run budget =>
    have hsteps (i : Nat) (hi : i < a.stepsIn budget) : (a.stepped i).ListsQuietly :=
      hq ⟨a.stepped i, .step⟩ (List.mem_map.2 ⟨i, List.mem_range.2 hi, rfl⟩) rfl
    obtain ⟨hstate, hsame⟩ := h.runFrom budget (budget + 2) 0 hsteps
    exact ⟨congrArg Answer.ended hstate, hsame⟩
  | load s =>
    have hloaded (console : Console π) : console.unlogged.respond (.load s) =
        ((console.respond (.load s)).1, (console.respond (.load s)).2.unlogged) := by
      simp only [Console.respond, load_unlogged]
      cases console.load s <;> rfl
    exact h.of_unlogged (f := (Console.respond · (.load s))) (hloaded a) (hloaded b)
  | nmi =>
    exact h.of_unlogged (f := (Console.respond · .nmi)) (congrArg (Answer.done, ·) a.nmi_unlogged)
      (congrArg (Answer.done, ·) b.nmi_unlogged)
  | hblank | reset | press | pause | read | write | writePattern | setBreakpoints | setWatchpoints | attachVideo
  | assign =>
    exact h.of_unlogged (f := (Console.respond · _)) rfl rfl

omit [VideoUnit π] in
theorem save (h : a.SameButLog b) : a.save = b.save := by
  show a.unlogged.save = b.unlogged.save
  rw [show a.unlogged = b.unlogged from h]

/-- **Actions that list quietly show a host the same run**, by induction on them. -/
theorem transcript (h : a.SameButLog b) (actions : List (HostAction π))
    (hq : ∀ moment ∈ a.moments actions, moment.action = .step → moment.before.ListsQuietly) :
    a.transcript actions = b.transcript actions ∧ (a.following actions).SameButLog (b.following actions) := by
  induction actions generalizing a b with
  | nil => exact ⟨rfl, h⟩
  | cons action actions ih =>
    obtain ⟨hanswer, hsame⟩ := h.respond action fun moment hmem => hq moment (List.mem_append_left _ hmem)
    obtain ⟨hrest, hlast⟩ := ih hsame fun moment hmem => hq moment (List.mem_append_right _ hmem)
    refine ⟨?_, hlast⟩
    simp only [Console.transcript, hanswer, hsame.save, hrest]

end SameButLog

/-- **The log is transparent where no device notices a listing.**  With another debug flag and another history a console
gives the same answers, shows the same snapshot after each of them, and ends the same but for the log, as long as every
step lists its instruction quietly; and it does so wherever the instruction's bytes lie outside the video, status and
pad registers and the opcode is not the byte left on the bus. -/
theorem logging_transparent (console : Console π) (debug : Bool) (history : History) (actions : List (HostAction π))
    (h : ∀ moment ∈ console.moments actions, moment.action = .step → moment.before.ListsQuietly) :
    let other : Console π := { console with cpu := { console.cpu with debug, history } }
    other.transcript actions = console.transcript actions ∧
      (other.following actions).unlogged = (console.following actions).unlogged ∧
      ∀ (bus : ConsoleBus π) (pc : UInt16), pc ≠ 0x4014 → (∀ i < 3, ConsoleBus.Passive (pc + UInt16.ofNat i)) →
        bus.ListsQuietly pc := by
  intro other
  have hsame : console.SameButLog other := rfl
  obtain ⟨htranscript, hlast⟩ := hsame.transcript actions h
  exact ⟨htranscript.symm, hlast.symm, fun bus _ hpc hpassive => bus.listsQuietly_of_passive hpc hpassive⟩

/-- Without a cartridge a fresh console executes `BRK` from work RAM, again and again. -/
theorem logging_transparent_brk :
    let console : Console VideoLatch := initial {} false
    let logged : Console VideoLatch := initial {} true
    let actions : List (HostAction VideoLatch) := [.step, .hblank 241, .step]
    (∀ moment ∈ console.moments actions, moment.action = .step → moment.before.ListsQuietly) ∧
      logged.transcript actions = console.transcript actions := by
  intro console logged actions
  have hpassive : ∀ i < 3, ConsoleBus.Passive (0 + UInt16.ofNat i) := by
    unfold ConsoleBus.Passive
    decide
  have hquiet (console : Console VideoLatch) (hpc : console.takeIrq.2.cpu.registers.pc = 0) : console.ListsQuietly := by
    intro _
    rw [hpc]
    exact ConsoleBus.listsQuietly_of_passive _ (by decide) hpassive
  have h : ∀ moment ∈ console.moments actions, moment.action = .step → moment.before.ListsQuietly := by
    intro moment hmem hstep
    apply hquiet
    simp only [moments, momentsOf, actions, List.cons_append, List.nil_append, List.mem_cons, List.not_mem_nil,
      or_false] at hmem
    obtain rfl | rfl | rfl := hmem
    · rfl
    · cases hstep
    · decide +kernel
  exact ⟨h, (logging_transparent console true {capacity := historyCapacity} actions h).1⟩

/-- **A listing shifts a pad**: with button A held and the program counter in the first pad's register, the instruction
that a step fetches is another one than without the log, and takes another number of cycles. -/
theorem logging_shifts_pad :
    let console : Console VideoLatch := initial {} false
    let logged : Console VideoLatch := initial {} true
    let actions : List (HostAction VideoLatch) :=
      [.press 0 1, .write 0x4016 1, .write 0x4016 0, .write 0 0x4C, .write 1 0x16, .write 2 0x40, .step, .step]
    (console.transcript actions).map (·.1) = [.done, .done, .done, .done, .done, .done, .spent 3, .spent 6] ∧
      (logged.transcript actions).map (·.1) = [.done, .done, .done, .done, .done, .done, .spent 3, .spent 7] ∧
      logged.transcript actions ≠ console.transcript actions := by
  intro console logged actions
  have hplain : (console.transcript actions).map (·.1) =
      [.done, .done, .done, .done, .done, .done, .spent 3, .spent 6] := by decide +kernel
  have hlogged : (logged.transcript actions).map (·.1) =
      [.done, .done, .done, .done, .done, .done, .spent 3, .spent 7] := by decide +kernel
  refine ⟨hplain, hlogged, fun h => ?_⟩
  rw [h, hplain] at hlogged
  revert hlogged
  decide

end Console
end NesConsole
