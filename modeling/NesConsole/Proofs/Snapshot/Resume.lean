import NesConsole.Proofs.Snapshot.Loadable
/-!
# A restored console goes on as the saved one would have

Two consoles are alike when they differ only in what nothing they do depends on: the step history, the last fault, the
address and operation of the last instruction, and the cycle count.  Alike consoles answer every action alike and stay
alike (`Console.Alike.respond`).  A console that has taken a genuine snapshot over is alike to the one that saved it, if
it agreed with that one on what a snapshot does not hold.
-/
namespace NesConsole

/-! ## Processors -/

/-- The processors differ at most in their history, last fault and last instruction. -/
structure Processor.Alike (a b : Processor) : Prop where
  registers : a.registers = b.registers
  paused : a.paused = b.paused
  breakpoints : a.breakpoints = b.breakpoints
  watchpoints : a.watchpoints = b.watchpoints
  debug : a.debug = b.debug

namespace Processor.Alike

variable {β : Type} [Bus β] {a b : Processor}

theorem note (h : a.Alike b) (line line' : String) : (a.note line).Alike (b.note line') := by
  unfold Processor.note
  by_cases hd : b.debug = true
  · rw [if_pos hd, if_pos (h.debug.trans hd)]
    exact { h with }
  · rw [if_neg hd, if_neg (h.debug ▸ hd)]
    exact h

/-- A watched exchange goes the same way. -/
theorem exchange {α : Type} (h : a.Alike b) {e e' : Exchange α} (he : e = e') (bus : β) :
    (a.exchange e bus).1 = (b.exchange e' bus).1 ∧ (a.exchange e bus).2.1.Alike (b.exchange e' bus).2.1 ∧
      (a.exchange e bus).2.2 = (b.exchange e' bus).2.2 := by
  have hwatched : e.watched a.watchpoints a.paused bus = e'.watched b.watchpoints b.paused bus := by
    rw [h.watchpoints, h.paused, he]
  exact ⟨congrArg (·.1) hwatched, { h with paused := congrArg (·.2.1) hwatched }, congrArg (·.2.2) hwatched⟩

theorem noteStep (h : a.Alike b) (bus : β) :
    (a.noteStep bus).1.Alike (b.noteStep bus).1 ∧ (a.noteStep bus).2 = (b.noteStep bus).2 := by
  unfold Processor.noteStep
  rw [← h.debug, ← h.registers]
  split
  · exact ⟨h.note _ _, rfl⟩
  · exact ⟨h, rfl⟩

theorem conclude (h : a.Alike b) (start : UInt16) (fetched : Fetched) :
    (a.conclude start fetched).1 = (b.conclude start fetched).1 ∧
      (a.conclude start fetched).2.Alike (b.conclude start fetched).2 := by
  cases fetched with
  | unmapped code =>
    exact ⟨rfl, { h with registers := by simp only [Processor.conclude, Processor.stop, h.registers], paused := rfl }⟩
  | executed i behind effect pageCrossed =>
    refine ⟨rfl, ?_⟩
    cases effect with
    | none => exact { h with registers := rfl, paused := rfl }
    | some effect =>
      exact { h with registers := rfl, paused := by simp only [Processor.conclude, settle, h.paused, h.breakpoints] }

/-- **Alike processors take the same step.** -/
theorem step (h : a.Alike b) (bus : β) :
    (a.step bus).1 = (b.step bus).1 ∧ (a.step bus).2.1.Alike (b.step bus).2.1 ∧
      (a.step bus).2.2 = (b.step bus).2.2 := by
  obtain ⟨hnoted, hbus⟩ := h.noteStep bus
  rw [step_eq, step_eq]
  dsimp only
  rw [← hbus]
  obtain ⟨hfetched, hcpu, hleft⟩ := hnoted.exchange (congrArg Registers.instruction hnoted.registers) (a.noteStep bus).2
  rw [← hfetched, ← hnoted.registers] at *
  obtain ⟨hcycles, hconcluded⟩ := hcpu.conclude (a.noteStep bus).1.registers.pc
    ((a.noteStep bus).1.exchange (a.noteStep bus).1.registers.instruction (a.noteStep bus).2).1
  exact ⟨hcycles, hconcluded, hleft⟩

theorem reset (h : a.Alike b) (bus : β) :
    (a.reset bus).1.Alike (b.reset bus).1 ∧ (a.reset bus).2 = (b.reset bus).2 := by
  obtain ⟨hregisters, hcpu, hbus⟩ := h.exchange (congrArg Registers.reset h.registers) bus
  exact ⟨{ hcpu with registers := hregisters }, hbus⟩

/-- Entering an interrupt, whose line in the history is left open. -/
theorem enter (h : a.Alike b) (interrupt : Interrupt) (line line' : String) (bus : β) :
    let entered := (a.note line).exchange (interrupt.enter a.registers.pc (a.note line).registers) bus
    let entered' := (b.note line').exchange (interrupt.enter b.registers.pc (b.note line').registers) bus
    entered.1 = entered'.1 ∧ entered.2.1.Alike entered'.2.1 ∧ entered.2.2 = entered'.2.2 :=
  (h.note line line').exchange (by rw [h.registers, (h.note line line').registers]) bus

theorem pauseAt (h : a.Alike b) (event : DebugEvent) {r r' : Registers} (hr : r = r') :
    Processor.Alike { a with registers := r, paused := a.paused || a.breakpoints.isEventEnabled event }
      { b with registers := r', paused := b.paused || b.breakpoints.isEventEnabled event } :=
  { h with registers := hr, paused := by simp only [h.paused, h.breakpoints] }

theorem nmi (h : a.Alike b) (bus : β) : (a.nmi bus).1.Alike (b.nmi bus).1 ∧ (a.nmi bus).2 = (b.nmi bus).2 := by
  obtain ⟨hregisters, hcpu, hbus⟩ := h.enter .nmi ("NMI occurred at pc=" ++ hexWord a.registers.pc)
    ("NMI occurred at pc=" ++ hexWord b.registers.pc) bus
  exact ⟨hcpu.pauseAt .nmi hregisters, hbus⟩

theorem requestIrq (h : a.Alike b) (bus : β) :
    (a.requestIrq bus).1 = (b.requestIrq bus).1 ∧ (a.requestIrq bus).2.1.Alike (b.requestIrq bus).2.1 ∧
      (a.requestIrq bus).2.2 = (b.requestIrq bus).2.2 := by
  unfold Processor.requestIrq
  by_cases hmasked : b.registers.p.interruptDisable = true
  · rw [if_pos hmasked, if_pos (h.registers.symm ▸ hmasked)]
    exact ⟨rfl, h, rfl⟩
  · rw [if_neg hmasked, if_neg (h.registers.symm ▸ hmasked)]
    obtain ⟨hregisters, hcpu, hbus⟩ := h.enter .irq ("IRQ occurred at pc=" ++ hexWord a.registers.pc)
      ("IRQ occurred at pc=" ++ hexWord b.registers.pc) bus
    exact ⟨rfl, { hcpu with registers := hregisters }, hbus⟩

end Processor.Alike

/-! ## Consoles -/

namespace Console

variable {π : Type}

/-- The consoles differ at most in what no action depends on. -/
structure Alike (m n : Console π) : Prop where
  cpu : m.cpu.Alike n.cpu
  bus : m.bus = n.bus
  irq : m.irq = n.irq

theorem Alike.save {m n : Console π} (h : m.Alike n) : m.save = n.save := by
  unfold Console.save
  rw [h.cpu.registers, h.bus, h.irq]

/-- What a load puts on the bus, which is all that it needs of a console. -/
def busContents (bus : ConsoleBus π) (s : Snapshot) : Except Corruption (ConsoleBus π) := do
  s.cpu.check
  if h : s.ram.size = workRamSize then
    let cartridge ← loadCartridge bus.cartridge s.cartridge
    let apu ← bus.apu.load s.apu
    return { bus with ram := ⟨s.ram, h⟩, apu, cartridge }
  else
    .error (.workRamSize s.ram.size)

theorem loadContents_eq (console : Console π) (s : Snapshot) :
    console.loadContents s = (fun bus => { console with
      cpu := { console.cpu with registers := s.cpu, operation := none }, bus, irq := s.irqPending }) <$>
        busContents console.bus s := by
  unfold loadContents busContents Processor.load
  cases s.cpu.check with
  | error => rfl
  | ok =>
    by_cases hs : s.ram.size = workRamSize
    · simp only [dif_pos hs]
      cases loadCartridge console.bus.cartridge s.cartridge with
      | error => rfl
      | ok => cases console.bus.apu.load s.apu <;> rfl
    · simp only [dif_neg hs]
      rfl

namespace Alike

variable {m n : Console π}

/-- Alike consoles refuse the same snapshots, and are alike after one that they accept. -/
theorem load (h : m.Alike n) (s : Snapshot) :
    (∃ e, m.load s = .error e ∧ n.load s = .error e) ∨
      ∃ m' n', m.load s = .ok m' ∧ n.load s = .ok n' ∧ m'.Alike n' := by
  unfold Console.load
  split
  · rw [loadContents_eq, loadContents_eq, ← h.bus]
    cases busContents m.bus s with
    | error e => exact .inl ⟨_, rfl, rfl⟩
    | ok bus => exact .inr ⟨_, _, rfl, rfl, ⟨{ h.cpu with registers := rfl }, rfl, rfl⟩⟩
  · exact .inl ⟨_, rfl, rfl⟩

theorem hblank (h : m.Alike n) (scanline : UInt16) : (m.hblank scanline).Alike (n.hblank scanline) := by
  unfold Console.hblank Console.tick
  dsimp only
  rw [h.bus, h.irq]
  exact ⟨h.cpu, rfl, rfl⟩

variable [VideoUnit π]

theorem takeIrq (h : m.Alike n) : m.takeIrq.1 = n.takeIrq.1 ∧ m.takeIrq.2.Alike n.takeIrq.2 := by
  cases hraised : n.irq with
  | false =>
    rw [takeIrq_of_clear hraised, takeIrq_of_clear (h.irq.trans hraised)]
    exact ⟨rfl, h⟩
  | true =>
    rw [takeIrq_of_raised hraised, takeIrq_of_raised (h.irq.trans hraised), h.bus]
    obtain ⟨haccepted, hcpu, hbus⟩ := h.cpu.requestIrq n.bus
    dsimp only
    rw [haccepted]
    exact ⟨rfl, hcpu, hbus, rfl⟩

/-- **Alike consoles take the same step.** -/
theorem step (h : m.Alike n) : m.step.1 = n.step.1 ∧ m.step.2.Alike n.step.2 := by
  cases hpaused : n.cpu.paused with
  | true =>
    rw [step_of_paused hpaused, step_of_paused (h.cpu.paused.trans hpaused)]
    exact ⟨rfl, h⟩
  | false =>
    rw [step_of_running hpaused, step_of_running (h.cpu.paused.trans hpaused)]
    obtain ⟨hentered, htaken⟩ := h.takeIrq
    dsimp only
    rw [htaken.bus, htaken.irq, hentered]
    obtain ⟨hexecuted, hcpu, hbus⟩ := htaken.cpu.step n.takeIrq.2.bus
    rw [hexecuted, hbus]
    exact ⟨rfl, hcpu, rfl, rfl⟩

theorem runFrom (budget steps spent : Nat) (h : m.Alike n) :
    (Console.runFrom budget steps spent m).1 = (Console.runFrom budget steps spent n).1 ∧
      (Console.runFrom budget steps spent m).2.Alike (Console.runFrom budget steps spent n).2 := by
  induction steps generalizing spent m n with
  | zero => exact ⟨rfl, h⟩
  | succ steps ih =>
    unfold Console.runFrom
    split
    · exact ⟨rfl, h⟩
    · by_cases hpaused : n.cpu.paused = true
      · rw [if_pos hpaused, if_pos (h.cpu.paused.trans hpaused)]
        exact ⟨rfl, h⟩
      · rw [if_neg hpaused, if_neg (h.cpu.paused.symm ▸ hpaused)]
        dsimp only
        rw [h.step.1]
        exact ih _ h.step.2

theorem nmi (h : m.Alike n) : m.nmi.Alike n.nmi := by
  obtain ⟨_, bus, _, _⟩ := m
  obtain ⟨_, _, _, _⟩ := n
  obtain ⟨hcpu, rfl, rfl⟩ := h
  obtain ⟨hcpu, hbus⟩ := hcpu.nmi bus
  exact ⟨hcpu, hbus, rfl⟩

theorem reset (h : m.Alike n) : m.reset.Alike n.reset := by
  obtain ⟨_, bus, _, _⟩ := m
  obtain ⟨_, _, _, _⟩ := n
  obtain ⟨hcpu, rfl, rfl⟩ := h
  obtain ⟨hcpu, hbus⟩ := hcpu.reset bus.reset
  exact ⟨hcpu, hbus, rfl⟩

theorem perform {α : Type} (h : m.Alike n) (e : Exchange α) :
    (m.perform e).1 = (n.perform e).1 ∧ (m.perform e).2.Alike (n.perform e).2 := by
  obtain ⟨_, _, _, _⟩ := m
  obtain ⟨_, _, _, _⟩ := n
  obtain ⟨hcpu, rfl, rfl⟩ := h
  exact ⟨rfl, hcpu, rfl, rfl⟩

/-- **Alike consoles answer every action alike**, and stay alike. -/
theorem respond (h : m.Alike n) (action : HostAction π) :
    (m.respond action).1 = (n.respond action).1 ∧ (m.respond action).2.Alike (n.respond action).2 := by
  cases action with
  | step => exact ⟨congrArg Answer.spent h.step.1, h.step.2⟩
  | run budget =>
    obtain ⟨hstate, halike⟩ := h.runFrom budget (budget + 2) 0
    exact ⟨congrArg Answer.ended hstate, halike⟩
  | hblank scanline => exact ⟨rfl, h.hblank scanline⟩
  | nmi => exact ⟨rfl, h.nmi⟩
  | reset => exact ⟨rfl, h.reset⟩
  | press pad held => exact ⟨rfl, h.cpu, by simp only [Console.respond, press, h.bus], h.irq⟩
  | pause paused => exact ⟨rfl, { h.cpu with paused := rfl }, h.bus, h.irq⟩
  | read address =>
    obtain ⟨hvalue, halike⟩ := h.perform (Exchange.byte address)
    exact ⟨congrArg Answer.byte hvalue, halike⟩
  | write address value => exact ⟨rfl, (h.perform (Exchange.store address value)).2⟩
  | writePattern address value => exact ⟨rfl, h.cpu, congrArg (·.writePattern address value) h.bus, h.irq⟩
  | load s =>
    rcases h.load s with ⟨e, hm, hn⟩ | ⟨m', n', hm, hn, halike⟩
    · simp only [Console.respond, hm, hn]
      exact ⟨trivial, h⟩
    · simp only [Console.respond, hm, hn]
      exact ⟨trivial, halike⟩
  | setBreakpoints breakpoints => exact ⟨rfl, { h.cpu with breakpoints := rfl }, h.bus, h.irq⟩
  | setWatchpoints watchpoints => exact ⟨rfl, { h.cpu with watchpoints := rfl }, h.bus, h.irq⟩
  | attachVideo video => exact ⟨rfl, h.cpu, congrArg (fun bus => { bus with video }) h.bus, h.irq⟩
  | assign registers => exact ⟨rfl, { h.cpu with registers := rfl }, h.bus, h.irq⟩

/-- Alike consoles show a host the same run. -/
theorem transcript (h : m.Alike n) (actions : List (HostAction π)) : m.transcript actions = n.transcript actions := by
  induction actions generalizing m n with
  | nil => rfl
  | cons action actions ih =>
    obtain ⟨hanswer, halike⟩ := h.respond action
    simp only [Console.transcript, hanswer, halike.save, ih halike]

end Alike

/-- The consoles agree on what a snapshot does not hold. -/
structure SameSurroundings (m n : Console π) : Prop where
  pads : m.bus.apu.pads = n.bus.apu.pads
  video : m.bus.video = n.bus.video
  lastRead : m.bus.lastRead = n.bus.lastRead
  stall : m.bus.stall = n.bus.stall
  paused : m.cpu.paused = n.cpu.paused
  breakpoints : m.cpu.breakpoints = n.cpu.breakpoints
  watchpoints : m.cpu.watchpoints = n.cpu.watchpoints
  debug : m.cpu.debug = n.cpu.debug

theorem takeOver_alike {console saved : Console π} (h : console.SameSurroundings saved) :
    (console.takeOver saved).Alike saved where
  cpu := ⟨rfl, h.paused, h.breakpoints, h.watchpoints, h.debug⟩
  bus := by simp only [takeOver, h.pads, h.video, h.lastRead, h.stall]
  irq := rfl

/-- **Restoring a snapshot resumes the same run**: the console accepts it, and from then on answers every sequence of
actions as the saved one does, with the same snapshot after each. -/
theorem Reachable.resume [VideoUnit π] {source : Option CartridgeSource} {allowed : HostAction π → Prop}
    {saved console : Console π} (hs : Reachable (fun action => action.isAssignment = false) source saved)
    (hc : Reachable allowed source console) (h : console.SameSurroundings saved) :
    ∃ restored, console.load saved.save = .ok restored ∧
      ∀ actions, restored.transcript actions = saved.transcript actions :=
  ⟨_, load_save hs.genuine hs.reserved hc.genuine, (takeOver_alike h).transcript⟩

/-- A scanline changes only what a snapshot holds. -/
theorem sameSurroundings_hblank (console : Console π) (scanline : UInt16) :
    console.SameSurroundings (console.hblank scanline) := by
  have hpads : (console.bus.apu.hblank scanline).2.pads = console.bus.apu.pads := by
    unfold Apu.hblank
    dsimp only
    split <;> rfl
  have hbus (bus : ConsoleBus π) : (bus.hblankCartridge scanline).2.apu = bus.apu ∧
      (bus.hblankCartridge scanline).2.video = bus.video ∧ (bus.hblankCartridge scanline).2.lastRead = bus.lastRead ∧
      (bus.hblankCartridge scanline).2.stall = bus.stall := by
    unfold ConsoleBus.hblankCartridge
    split <;> exact ⟨rfl, rfl, rfl, rfl⟩
  obtain ⟨hapu, hvideo, hlast, hstall⟩ := hbus { console.bus with apu := (console.bus.apu.hblank scanline).2 }
  exact ⟨((congrArg Apu.pads hapu).trans hpads).symm, hvideo.symm, hlast.symm, hstall.symm, rfl, rfl, rfl, rfl⟩

/-- A console with an MMC3 board saved after a scanline, and a fresh one that takes its snapshot over. -/
theorem resume_after_hblank :
    ∃ (source : CartridgeSource) (saved console : Console VideoLatch), source.number = 4 ∧
      Reachable (fun action => action.isAssignment = false) (some source) saved ∧
      Reachable (fun _ => True) (some source) console ∧ console.SameSurroundings saved ∧
      ∃ restored, console.load saved.save = .ok restored ∧
        ∀ actions, restored.transcript actions = saved.transcript actions := by
  let source : CartridgeSource := { prg := .replicate 0x2000 0xEA, chr := #[], number := 4 }
  obtain ⟨cartridge, hc⟩ := Cartridge.ofImages_ok source (by simp [source]) (by simp [source, prgBankSize]) rfl rfl
    .vertical
  let fresh := (initial ({ value := 0 } : VideoLatch) false).insert cartridge
  have hs : Reachable (fun action => action.isAssignment = false) (some source) fresh := .insert (.new _ false) hc
  have hticked : Reachable (fun action => action.isAssignment = false) (some source) (fresh.respond (.hblank 7)).2 :=
    .act hs rfl
  have hfresh := Reachable.mono (fun _ _ => trivial) hs
  have hsame : fresh.SameSurroundings (fresh.respond (.hblank 7)).2 := fresh.sameSurroundings_hblank 7
  exact ⟨source, _, _, rfl, hticked, hfresh, hsame, Reachable.resume hticked hfresh hsame⟩

end Console
end NesConsole
