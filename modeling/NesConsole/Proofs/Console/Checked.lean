import NesConsole.Proofs.Audio.Checked
import NesConsole.Proofs.Cartridge.Checked
import NesConsole.Proofs.Processor.Embedding
import NesConsole.Proofs.Processor.Forms
import NesConsole.Proofs.Snapshot.Loadable
/-!
# Checked arithmetic

A console with checks on the counters, table indices and divisors of the devices, on the stack's addresses, and on the
cycles of an instruction, which are counted in a byte.  Its bus is an `Option`, of which nothing is left after a failed
check, and the processor runs on that bus as on any other.  Whatever a host does with a console, the checked one does too
and never fails (`Console.Reachable.arithmetic_exact`).

Not checked are the stall that a bus owes and the cycles that a console has run: a host can let both start over.
-/
namespace NesConsole

/-! ## The processor -/

namespace Registers

def stackAddress? (r : Registers) : Option UInt16 := Checked.addWord stackPage r.s.toUInt16

def push? (r : Registers) (value : UInt8) : Option (Exchange Registers) := do
  let address ← r.stackAddress?
  return do
    Exchange.store address value
    return { r with s := r.s - 1 }

def pull? (r : Registers) : Option (Exchange (UInt8 × Registers)) := do
  let r := { r with s := r.s + 1 }
  let address ← r.stackAddress?
  return do
    let value ← Exchange.byte address
    return (value, r)

/-- The stack ends well below the top of memory. -/
theorem stackAddress?_eq (r : Registers) : r.stackAddress? = some (stackPage + r.s.toUInt16) := by
  have hs : r.s.toUInt16.toNat < 0x100 := by
    rw [UInt8.toNat_toUInt16]
    exact r.s.toNat_lt
  exact if_pos (Nat.lt_trans (Nat.add_lt_add_left hs _) (by decide))

theorem push?_eq (r : Registers) (value : UInt8) : r.push? value = some (r.push value) := by
  rw [push?, stackAddress?_eq]
  rfl

theorem pull?_eq (r : Registers) : r.pull? = some r.pull := by
  rw [pull?, stackAddress?_eq]
  rfl

end Registers

/-- The cycles of an instruction, counted in a byte. -/
def Instruction.totalCycles? (i : Instruction) (extra : Nat) (pageCrossed : Bool) : Option UInt8 := do
  let base ← Checked.byte i.cycles
  let extra ← Checked.byte extra
  let cycles ← Checked.addByte base extra
  if i.pagePenalty && pageCrossed then Checked.addByte cycles 1 else return cycles

def Fetched.cycles? : Fetched → Option UInt8
  | .unmapped _ => some 0
  | .executed i _ effect pageCrossed => i.totalCycles? (effect.elim 0 Effect.extraCycles) pageCrossed

theorem Instruction.totalCycles?_eq {i : Instruction} {extra : Nat} {pageCrossed : Bool}
    (h : i.totalCycles extra pageCrossed < 0x100) :
    i.totalCycles? extra pageCrossed = some (UInt8.ofNat (i.totalCycles extra pageCrossed)) := by
  unfold totalCycles? totalCycles at *
  rw [Checked.byte_eq (by omega), Checked.byte_eq (by omega)]
  simp only [Option.bind_eq_bind, Option.bind_some, Checked.addByte_ofNat (show i.cycles + extra < 0x100 by omega)]
  cases hpage : i.pagePenalty && pageCrossed with
  | false => rfl
  | true =>
    rw [hpage] at h
    exact Checked.addByte_ofNat h

/-- **A byte holds the cycles of every instruction.** -/
theorem Processor.cycles?_eq {β : Type} [Bus β] (cpu : Processor) (bus : β) :
    ∃ cycles, (cpu.fetched bus).1.cycles? = some cycles ∧ cycles.toNat = (cpu.step bus).1 := by
  have h := cpu.fetched_regular bus
  rw [step_performed]
  generalize (cpu.fetched bus).1 = fetched at h ⊢
  cases fetched with
  | unmapped code => exact ⟨0, rfl, rfl⟩
  | executed i behind effect pageCrossed =>
    obtain ⟨-, -, -, hmost⟩ := h
    have hbyte : i.totalCycles (effect.elim 0 Effect.extraCycles) pageCrossed < 0x100 :=
      Nat.lt_of_le_of_lt hmost (by decide)
    exact ⟨_, Instruction.totalCycles?_eq hbyte, UInt8.toNat_ofNat_of_lt' hbyte⟩

/-! ## The bus -/

namespace ConsoleBus

variable {π : Type} [VideoUnit π]

def write? (bus : ConsoleBus π) (address : UInt16) (value : UInt8) : Option (ConsoleBus π) :=
  if bus.claims address then do
    let cartridge ← bus.cartridge.mapM (·.writeBoard? address value)
    return { bus with cartridge }
  else if 0x4000 ≤ address ∧ address < 0x4020 ∧ address ≠ 0x4014 then do
    let apu ← bus.apu.write? address value
    return { bus with apu }
  else
    some (bus.store address value)

/-- The bus with its checks.  After one has failed nothing is left of it. -/
instance : Bus (Option (ConsoleBus π)) where
  read
    | none, _ => (0, none)
    | some bus, address => let (value, bus) := bus.read address; (value, some bus)
  write bus address value := bus.bind (·.write? address value)

omit [VideoUnit π]

def reset? (bus : ConsoleBus π) : Option (ConsoleBus π) := do
  let cartridge ← bus.cartridge.mapM Cartridge.reset?
  return { video := bus.video, apu := bus.apu.reset, cartridge }

def hblankCartridge? (bus : ConsoleBus π) (scanline : UInt16) : Option (Bool × ConsoleBus π) :=
  match bus.cartridge with
  | none => some (false, bus)
  | some cartridge => do
    let (fired, cartridge) ← cartridge.hblank? scanline
    return (fired, { bus with cartridge := some cartridge })

def hblank? (bus : ConsoleBus π) (scanline : UInt16) : Option (AudioRequests × Bool × ConsoleBus π) := do
  let (audio, apu) ← bus.apu.hblank? scanline
  let (board, bus) ← { bus with apu }.hblankCartridge? scanline
  return (audio, board, bus)

namespace Genuine

variable {source : Option CartridgeSource} {bus : ConsoleBus π}

theorem mapM_eq {f : Cartridge → Option Cartridge} {g : Cartridge → Cartridge}
    (hf : ∀ source c, Cartridge.Fits source c → f c = some (g c)) (h : bus.Genuine source) :
    bus.cartridge.mapM f = some (bus.cartridge.map g) := by
  have hcartridge := h.cartridge
  generalize bus.cartridge = inserted at hcartridge ⊢
  cases hcartridge with
  | none => rfl
  | some hfits =>
    show (some <$> f _ : Option (Option Cartridge)) = _
    rw [hf _ _ hfits]
    rfl

theorem reset?_eq (h : bus.Genuine source) : bus.reset? = some bus.reset := by
  rw [reset?, h.mapM_eq fun _ _ h => Cartridge.reset?_eq h.banks]
  rfl

theorem hblank?_eq (h : bus.Genuine source) (scanline : UInt16) :
    bus.hblank? scanline = some (bus.hblank scanline) := by
  have hcartridge (bus : ConsoleBus π) : bus.hblankCartridge? scanline = some (bus.hblankCartridge scanline) := by
    unfold hblankCartridge? hblankCartridge
    cases bus.cartridge with
    | none => rfl
    | some c =>
      dsimp only
      rw [Cartridge.hblank?_eq]
      rfl
  rw [hblank?, Apu.hblank?_eq h.channels]
  simp only [Option.bind_eq_bind, Option.bind_some, hcartridge]
  rfl

variable [VideoUnit π]

theorem write?_eq (h : bus.Genuine source) (address : UInt16) (value : UInt8) :
    bus.write? address value = some (bus.write address value) := by
  unfold write? ConsoleBus.write
  split
  · rw [h.mapM_eq fun _ _ h => h.writeBoard?_eq address value]
    rfl
  · split
    · next hsound =>
      obtain ⟨hlow, hhigh, htransfer⟩ := hsound
      unfold store
      rw [if_neg (by grind), if_neg (by grind), if_neg htransfer, if_pos hhigh, Apu.write?_eq]
      rfl
    · rfl

end Genuine

variable [VideoUnit π]

/-- **The checked bus never fails**, and does what the bus does. -/
theorem embeds_checked (source : Option CartridgeSource) :
    Embeds (fun bus : ConsoleBus π => bus.Genuine source) some where
  keeps := genuine_keeps source
  read _ _ _ := rfl
  write _ address value h := h.write?_eq address value

end ConsoleBus

/-! ## The console -/

namespace Console

variable {π : Type} [VideoUnit π]

def takeIrq? (console : Console π) : Option (UInt32 × Console π) :=
  if console.irq then do
    let { cpu, bus, irq, cycles } := console
    let (accepted, cpu, bus) := cpu.requestIrq (some bus)
    let bus ← bus
    return (if accepted then Interrupt.entryCycles else 0, { cpu, bus, irq := irq && !accepted, cycles })
  else
    some (0, console)

def step? (console : Console π) : Option (UInt32 × Console π) :=
  if console.cpu.paused then
    some (0, console)
  else do
    let (entered, { cpu, bus, irq, cycles }) ← console.takeIrq?
    let executed ← (cpu.fetched (some bus)).1.cycles?
    let (_, cpu, bus) := cpu.step (some bus)
    let (stalled, bus) := (← bus).takeStall
    let spent := entered + executed.toUInt32 + stalled
    return (spent, { cpu, bus, irq, cycles := cycles + spent.toUInt64 })

def runFrom? (budget : Nat) : (steps spent : Nat) → Console π → Option (RunState × Console π)
  | 0, spent, console => some (.completed spent, console)
  | steps + 1, spent, console =>
    if budget ≤ spent then
      some (.completed spent, console)
    else if console.cpu.paused then
      some (.paused spent, console)
    else do
      let (cycles, console) ← console.step?
      runFrom? budget steps (spent + cycles) console

def nmi? (console : Console π) : Option (Console π) := do
  let { cpu, bus, irq, cycles } := console
  let (cpu, bus) := cpu.nmi (some bus)
  return { cpu, bus := ← bus, irq, cycles := cycles + Interrupt.entryCycles.toUInt64 }

def reset? (console : Console π) : Option (Console π) := do
  let bus ← console.bus.reset?
  let (cpu, bus) := console.cpu.reset (some bus)
  return { cpu, bus := ← bus, irq := false, cycles := 0 }

def insert? (console : Console π) (cartridge : Cartridge) : Option (Console π) :=
  { console with bus := console.bus.insert cartridge }.reset?

def perform? {α : Type} (console : Console π) (e : Exchange α) : Option (α × Console π) := do
  let { cpu, bus, irq, cycles } := console
  let (result, bus) := e.perform (some bus)
  return (result, { cpu, bus := ← bus, irq, cycles })

omit [VideoUnit π] in
def hblank? (console : Console π) (scanline : UInt16) : Option (Console π) := do
  let { cpu, bus, irq, cycles } := console
  let (audio, board, bus) ← bus.hblank? scanline
  return { cpu, bus, irq := irq || audio.any || board, cycles }

/-- Carries out an action with every check.  What is not listed does no arithmetic that is checked. -/
def respond? (console : Console π) : HostAction π → Option (Answer × Console π)
  | .step => do
    let (cycles, console) ← console.step?
    return (.spent cycles, console)
  | .run budget => do
    let (state, console) ← runFrom? budget (budget + 2) 0 console
    return (.ended state, console)
  | .hblank scanline => do return (.done, ← console.hblank? scanline)
  | .nmi => do return (.done, ← console.nmi?)
  | .reset => do return (.done, ← console.reset?)
  | .read address => do
    let (value, console) ← console.perform? (Exchange.byte address)
    return (.byte value, console)
  | .write address value => do
    let (_, console) ← console.perform? (Exchange.store address value)
    return (.done, console)
  | action => some (console.respond action)

/-- What a host sees of a run with every check. -/
def transcript? : Console π → List (HostAction π) → Option (List (Answer × Snapshot))
  | _, [] => some []
  | console, action :: actions => do
    let (answer, console) ← console.respond? action
    let rest ← console.transcript? actions
    return (answer, console.save) :: rest

section

variable {source : Option CartridgeSource} {console : Console π}

theorem takeIrq?_eq (h : console.bus.Genuine source) : console.takeIrq? = some console.takeIrq := by
  obtain ⟨cpu, bus, irq, cycles⟩ := console
  unfold takeIrq? takeIrq
  split
  · dsimp only
    rw [(ConsoleBus.embeds_checked source).requestIrq cpu h]
    rfl
  · rfl

theorem takeIrq_genuine (h : console.bus.Genuine source) : console.takeIrq.2.bus.Genuine source :=
  (ConsoleBus.genuine_keeps source).takeIrq h

theorem step_genuine (h : console.bus.Genuine source) : console.step.2.bus.Genuine source :=
  (ConsoleBus.genuine_keeps source).consoleStep (fun _ h => h.takeStall) h

/-- **No check of a step fails.** -/
theorem step?_eq (h : console.bus.Genuine source) : console.step? = some console.step := by
  have hembeds := ConsoleBus.embeds_checked (π := π) source
  have htaken := takeIrq_genuine h
  unfold step? step
  split
  · rfl
  · rw [takeIrq?_eq h]
    generalize console.takeIrq = taken at htaken
    obtain ⟨entered, cpu, bus, irq, cycles⟩ := taken
    obtain ⟨executed, hexecuted, hcount⟩ := cpu.cycles?_eq bus
    simp only [Option.bind_eq_bind, Option.bind_some, hembeds.fetched cpu htaken, hembeds.step cpu htaken, hexecuted,
      ← hcount, UInt32.ofNat_uInt8ToNat]
    rfl

theorem runFrom?_eq (budget steps spent : Nat) (h : console.bus.Genuine source) :
    runFrom? budget steps spent console = some (runFrom budget steps spent console) := by
  induction steps generalizing spent console with
  | zero => rfl
  | succ steps ih =>
    unfold runFrom? runFrom
    split
    · rfl
    · split
      · rfl
      · rw [step?_eq h]
        exact ih _ (step_genuine h)

theorem reset?_eq (h : console.bus.Genuine source) : console.reset? = some console.reset := by
  rw [reset?, h.reset?_eq]
  simp only [Option.bind_eq_bind, Option.bind_some, (ConsoleBus.embeds_checked source).reset console.cpu h.reset]
  rfl

theorem nmi?_eq (h : console.bus.Genuine source) : console.nmi? = some console.nmi := by
  obtain ⟨cpu, bus, irq, cycles⟩ := console
  simp only [nmi?, (ConsoleBus.embeds_checked source).nmi cpu h]
  rfl

theorem perform?_eq {α : Type} (h : console.bus.Genuine source) (e : Exchange α) :
    console.perform? e = some (console.perform e) := by
  obtain ⟨cpu, bus, irq, cycles⟩ := console
  simp only [perform?, (ConsoleBus.embeds_checked source).perform e h]
  rfl

omit [VideoUnit π] in
theorem hblank?_eq (h : console.bus.Genuine source) (scanline : UInt16) :
    console.hblank? scanline = some (console.hblank scanline) := by
  obtain ⟨cpu, bus, irq, cycles⟩ := console
  simp only [hblank?, show bus.hblank? scanline = _ from h.hblank?_eq scanline]
  rfl

/-- **No check of an action fails.** -/
theorem respond?_eq (h : console.bus.Genuine source) (action : HostAction π) :
    console.respond? action = some (console.respond action) := by
  cases action with
  | step => rw [respond?, step?_eq h]; rfl
  | run budget => rw [respond?, runFrom?_eq budget _ _ h]; rfl
  | hblank scanline => rw [respond?, hblank?_eq h]; rfl
  | nmi => rw [respond?, nmi?_eq h]; rfl
  | reset => rw [respond?, reset?_eq h]; rfl
  | read address => rw [respond?, perform?_eq h]; rfl
  | write address value => rw [respond?, perform?_eq h]; rfl
  | press | pause | writePattern | load | setBreakpoints | setWatchpoints | attachVideo | assign => rfl

theorem transcript?_eq (h : console.bus.Genuine source) (actions : List (HostAction π)) :
    console.transcript? actions = some (console.transcript actions) := by
  induction actions generalizing console with
  | nil => rfl
  | cons action actions ih =>
    rw [transcript?, respond?_eq h]
    simp only [Option.bind_eq_bind, Option.bind_some, ih (respond_genuine h action)]
    rfl

/-- A cartridge that was built goes in, and the console resets, with no check that fails. -/
theorem insert?_eq (h : console.bus.Genuine source) {prg chr : Array UInt8} {number : UInt16} {mirroring : Mirroring}
    {cartridge : Cartridge} (hc : Cartridge.ofImages prg chr number mirroring = .ok cartridge) :
    console.insert? cartridge = some (console.insert cartridge) := by
  have hinserted : (console.bus.insert cartridge).Genuine (some { prg, chr, number }) :=
    ⟨h.channels, .some (Cartridge.ofImages_fits hc)⟩
  exact reset?_eq hinserted

/-- **No check fails on a console that a host can reach**: not in any run from there, loaded snapshots included, not in a
frequency or a duty cycle, not when another cartridge is built and inserted, and not on the stack.  Checked is all
arithmetic of the devices, of instructions and of stack addresses, but not the sums of cycles that a bus and a console
keep. -/
theorem Reachable.arithmetic_exact {allowed : HostAction π → Prop} (h : Reachable allowed source console) :
    (∀ actions, console.transcript? actions = some (console.transcript actions)) ∧
      (∀ channel, console.bus.apu.frequency? channel = some (console.bus.apu.frequency channel) ∧
        console.bus.apu.duty? channel = some (console.bus.apu.duty channel)) ∧
      (∀ prg chr number mirroring, ∃ built, Cartridge.ofImages? prg chr number mirroring = some built ∧
        built = Cartridge.ofImages prg chr number mirroring ∧
        ∀ cartridge, built = .ok cartridge → console.insert? cartridge = some (console.insert cartridge)) ∧
      ∀ (r : Registers) (value : UInt8), r.push? value = some (r.push value) ∧ r.pull? = some r.pull := by
  have hgenuine := h.genuine
  refine ⟨transcript?_eq hgenuine, fun channel => ⟨Apu.frequency?_eq _ channel, Apu.duty?_eq _ channel⟩, ?_,
    fun r value => ⟨r.push?_eq value, r.pull?_eq⟩⟩
  intro prg chr number mirroring
  exact ⟨_, Cartridge.ofImages?_eq prg chr number mirroring, rfl, fun _ hc => insert?_eq hgenuine hc⟩

/-- A console with an MMC3 board, whose scanline counter runs down after a scanline. -/
theorem arithmetic_exact_mmc3 :
    ∃ (source : CartridgeSource) (console : Console VideoLatch), source.number = 4 ∧
      Reachable (fun _ => True) (some source) console ∧
      console.transcript? [.write 0xC000 1, .hblank 0, .hblank 1, .load console.save, .run 100] =
        some (console.transcript [.write 0xC000 1, .hblank 0, .hblank 1, .load console.save, .run 100]) ∧
      (∃ hertz, console.bus.apu.frequency? 0 = some hertz) ∧
      console.cpu.registers.pull? = some console.cpu.registers.pull := by
  let source : CartridgeSource := { prg := .replicate 0x2000 0xEA, chr := #[], number := 4 }
  obtain ⟨cartridge, hc⟩ := Cartridge.ofImages_ok source (by simp [source]) (by simp [source, prgBankSize]) rfl rfl
    .vertical
  let fresh := (initial ({ value := 0 } : VideoLatch) false).insert cartridge
  have hticked : Reachable (fun _ => True) (some source) (fresh.respond (.hblank 0)).2 :=
    .act (.insert (.new _ false) hc) trivial
  obtain ⟨hruns, hchannels, -, hstack⟩ := Reachable.arithmetic_exact hticked
  exact ⟨source, _, rfl, hticked, hruns _, ⟨_, (hchannels 0).1⟩, (hstack _ 0).2⟩

end

end Console
end NesConsole
