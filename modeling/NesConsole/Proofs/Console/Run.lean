import NesConsole.Proofs.Console.Transfers
import NesConsole.Proofs.Snapshot.Accepted
import NesConsole.Proofs.Snapshot.Loadable
/-!
# Runs on a cycle budget

A run takes steps while its budget lasts and the processor is not paused.  That it ends needs no bound on the budget: a
step that spends nothing pauses, so every step brings the run nearer to its end (`Console.runFrom_stops`, by induction on
the steps still allowed).  How far it overshoots needs a bound on one step, and for that a console which owes no stall
from before.  The stall of a sprite transfer is collected in the step that started it, so only a host that writes to the
bus itself can leave one behind (`Reachable.stall`).
-/
namespace NesConsole

/-- Whether the host writes to the bus in the processor's place. -/
def HostAction.writesBus {π : Type} : HostAction π → Bool
  | write _ _ => true
  | _ => false

namespace RunState

/-- How a run that has stopped reports what it spent. -/
def of (budget spent : Nat) : RunState :=
  if budget ≤ spent then .completed spent else .paused spent

def cycles : RunState → Nat
  | completed cycles | paused cycles => cycles

theorem of_completed {budget spent c : Nat} (h : of budget spent = completed c) : c = spent ∧ budget ≤ spent := by
  unfold of at h
  split at h
  · cases h
    exact ⟨rfl, by assumption⟩
  · cases h

theorem of_paused {budget spent c : Nat} (h : of budget spent = paused c) : c = spent ∧ spent < budget := by
  unfold of at h
  split at h
  · cases h
  · cases h
    exact ⟨rfl, by omega⟩

@[simp] theorem cycles_of (budget spent : Nat) : (of budget spent).cycles = spent := by
  unfold of
  split <;> rfl

end RunState

namespace Console

variable {π : Type} [VideoUnit π]

def stepped : Nat → Console π → Console π
  | 0, console => console
  | n + 1, console => console.step.2.stepped n

def spentIn : Nat → Console π → Nat
  | 0, _ => 0
  | n + 1, console => console.step.1 + console.step.2.spentIn n

/-- How many steps a run takes that may take so many, and has spent so many cycles. -/
def stepsFrom (budget : Nat) : (steps spent : Nat) → Console π → Nat
  | 0, _, _ => 0
  | steps + 1, spent, console =>
    if budget ≤ spent ∨ console.cpu.paused = true then 0
    else stepsFrom budget steps (spent + console.step.1) console.step.2 + 1

def stepsIn (console : Console π) (budget : Nat) : Nat :=
  stepsFrom budget (budget + 2) 0 console

/-- Steps are taken while the processor runs and the budget lasts, and `n` is the number of them. -/
structure StopsAfter (budget n : Nat) (console : Console π) : Prop where
  going : ∀ i < n, (console.stepped i).cpu.paused = false ∧ console.spentIn i < budget
  ended : (console.stepped n).cpu.paused = true ∨ budget ≤ console.spentIn n

@[simp] theorem stepped_zero (console : Console π) : console.stepped 0 = console := rfl

@[simp] theorem stepped_one (console : Console π) : console.stepped 1 = console.step.2 := rfl

theorem stepped_succ (n : Nat) (console : Console π) : console.stepped (n + 1) = (console.stepped n).step.2 := by
  induction n generalizing console with
  | zero => rfl
  | succ n ih => exact ih console.step.2

theorem spentIn_succ (n : Nat) (console : Console π) :
    console.spentIn (n + 1) = console.spentIn n + (console.stepped n).step.1 := by
  induction n generalizing console with
  | zero => simp [spentIn, stepped]
  | succ n ih =>
    rw [spentIn, ih console.step.2, spentIn, stepped, Nat.add_assoc]

/-! ## One step -/

theorem takeIrq_spent (console : Console π) :
    console.takeIrq.1 = if console.irq && !console.cpu.registers.p.interruptDisable then 7 else 0 := by
  cases h : console.irq with
  | false =>
    rw [takeIrq_of_clear h]
    rfl
  | true =>
    rw [takeIrq_of_raised h]
    unfold Processor.requestIrq
    cases console.cpu.registers.p.interruptDisable <;> rfl

theorem takeIrq_stall (console : Console π) : console.takeIrq.2.bus.stall = console.bus.stall := by
  cases h : console.irq with
  | false => rw [takeIrq_of_clear h]
  | true =>
    rw [takeIrq_of_raised h]
    exact console.cpu.requestIrq_stall console.bus

theorem takeIrq_cycles (console : Console π) : console.takeIrq.2.cycles = console.cycles := by
  cases h : console.irq with
  | false => rw [takeIrq_of_clear h]
  | true => rw [takeIrq_of_raised h]

/-- The counter goes on by what the step gives, modulo the range of its word. -/
theorem step_counts (console : Console π) :
    console.step.2.cycles = console.cycles + UInt64.ofNat console.step.1 := by
  cases h : console.cpu.paused with
  | true =>
    rw [step_of_paused h]
    exact (UInt64.add_zero console.cycles).symm
  | false =>
    rw [step_of_running h]
    dsimp only
    rw [takeIrq_cycles, UInt64.ofNat_uInt32ToNat]

/-- What one step adds up stays far below the range of a word. -/
theorem toNat_spent (entered stalled : Bool) {executed : Nat} (h : executed ≤ 7) :
    ((if entered then 7 else 0) + UInt32.ofNat executed + if stalled then 513 else 0 : UInt32).toNat =
      (if entered then 7 else 0) + executed + if stalled then 513 else 0 := by
  have hexecuted : (UInt32.ofNat executed).toNat = executed := UInt32.toNat_ofNat_of_lt' (Nat.lt_of_le_of_lt h (by decide))
  cases entered <;> cases stalled <;>
    simp only [if_true, if_false, Bool.false_eq_true, UInt32.toNat_add, hexecuted, UInt32.reduceToNat] <;>
    omega

/-- **What a step spends**, when no stall was owed before it: the entry of a pending interrupt, the instruction, and the
stall of the transfer which that very instruction starts. -/
theorem step_spent {console : Console π} (h : console.cpu.paused = false) (hstall : console.bus.stall = 0) :
    let taken := console.takeIrq
    (console.step.1 : Nat) = (if console.irq && !console.cpu.registers.p.interruptDisable then 7 else 0) +
      (taken.2.cpu.step taken.2.bus).1 + if taken.2.cpu.startsTransfer taken.2.bus then 513 else 0 := by
  intro taken
  obtain ⟨hexecuted, -⟩ := taken.2.cpu.step_cycles taken.2.bus
  have howed := taken.2.cpu.step_stall taken.2.bus
  rw [takeIrq_stall, hstall, UInt32.zero_add] at howed
  rw [step_of_running h]
  dsimp only
  rw [howed, takeIrq_spent]
  exact toNat_spent _ _ hexecuted

/-- **A step spends at most 527 cycles**, when no stall was owed before it. -/
theorem step_spent_le {console : Console π} (hstall : console.bus.stall = 0) : (console.step.1 : Nat) ≤ 527 := by
  cases h : console.cpu.paused with
  | true =>
    rw [step_of_paused h]
    exact Nat.zero_le 527
  | false =>
    obtain ⟨hexecuted, -⟩ := console.takeIrq.2.cpu.step_cycles console.takeIrq.2.bus
    rw [step_spent h hstall]
    split <;> split <;> omega

/-- **A running step makes progress**, when no stall was owed before it: it spends two cycles at least, or pauses. -/
theorem step_progress {console : Console π} (h : console.cpu.paused = false) (hstall : console.bus.stall = 0) :
    2 ≤ (console.step.1 : Nat) ∨ console.step.2.cpu.paused = true := by
  obtain ⟨-, hleast | hpaused⟩ := console.takeIrq.2.cpu.step_cycles console.takeIrq.2.bus
  · left
    rw [step_spent h hstall]
    omega
  · right
    rw [step_of_running h]
    exact hpaused

/-- A running step collects whatever stall is owed. -/
theorem step_collects {console : Console π} (h : console.cpu.paused = false) : console.step.2.bus.stall = 0 := by
  rw [step_of_running h]

theorem step_stall {console : Console π} (hstall : console.bus.stall = 0) : console.step.2.bus.stall = 0 := by
  cases h : console.cpu.paused with
  | true => rwa [step_of_paused h]
  | false => exact step_collects h

/-! ## Runs -/

theorem stepped_counts (n : Nat) (console : Console π) :
    (console.stepped n).cycles = console.cycles + UInt64.ofNat (console.spentIn n) := by
  induction n with
  | zero => exact (UInt64.add_zero console.cycles).symm
  | succ n ih => rw [stepped_succ, step_counts, ih, spentIn_succ, UInt64.ofNat_add, UInt64.add_assoc]

theorem stepped_stall (n : Nat) {console : Console π} (hstall : console.bus.stall = 0) :
    (console.stepped n).bus.stall = 0 := by
  induction n with
  | zero => exact hstall
  | succ n ih =>
    rw [stepped_succ]
    exact step_stall ih

namespace StopsAfter

variable {budget n : Nat} {console : Console π}

theorem zero (h : console.cpu.paused = true ∨ budget = 0) : StopsAfter budget 0 console where
  going i hi := absurd hi (Nat.not_lt_zero i)
  ended := h.imp_right fun h => by simp [h]

theorem succ (hrunning : console.cpu.paused = false) (hbudget : 0 < budget)
    (h : StopsAfter (budget - console.step.1) n console.step.2) : StopsAfter budget (n + 1) console where
  going i hi := by
    cases i with
    | zero => exact ⟨hrunning, hbudget⟩
    | succ i =>
      obtain ⟨hgoing, hspent⟩ := h.going i (by omega)
      refine ⟨hgoing, ?_⟩
      rw [spentIn]
      omega
  ended := by
    obtain hpaused | hspent := h.ended
    · exact .inl hpaused
    · right
      rw [spentIn]
      omega

/-- The last step is begun within the budget, so the run overshoots it by less than one step. -/
theorem spentIn_le (h : StopsAfter budget n console) (hstall : console.bus.stall = 0) :
    console.spentIn n ≤ if budget = 0 then 0 else budget + 526 := by
  cases n with
  | zero => simp [spentIn]
  | succ n =>
    have hbegun := (h.going n (Nat.lt_succ_self n)).2
    have hlast := step_spent_le (stepped_stall n hstall)
    rw [spentIn_succ]
    split <;> omega

end StopsAfter

/-- **A run is the steps it takes.** -/
theorem runFrom_stepped (budget steps spent : Nat) (console : Console π) :
    (runFrom budget steps spent console).2 = console.stepped (stepsFrom budget steps spent console) := by
  induction steps generalizing spent console with
  | zero => rfl
  | succ steps ih =>
    unfold runFrom stepsFrom
    by_cases hspent : budget ≤ spent
    · simp [hspent]
    · cases hrunning : console.cpu.paused with
      | true => simp [hspent]
      | false =>
        simp only [hspent, or_self, if_false, Bool.false_eq_true, stepped]
        exact ih _ _

/-- **A run stops when it has to**, and not because it may take no more steps: each step spends a cycle of the budget that
is left, or pauses, but for a first one with a stall to collect. -/
theorem runFrom_stops (budget steps spent : Nat) (console : Console π)
    (hsteps : (console.bus.stall = 0 ∧ budget < spent + steps) ∨ budget + 1 < spent + steps ∨
      (console.cpu.paused = true ∧ 0 < steps)) :
    let n := stepsFrom budget steps spent console
    StopsAfter (budget - spent) n console ∧
      (runFrom budget steps spent console).1 = RunState.of budget (spent + console.spentIn n) := by
  induction steps generalizing spent console with
  | zero =>
    have hspent : budget ≤ spent := by omega
    refine ⟨.zero (.inr (by omega)), ?_⟩
    simp [runFrom, stepsFrom, RunState.of, spentIn, hspent]
  | succ steps ih =>
    unfold runFrom stepsFrom
    by_cases hspent : budget ≤ spent
    · simp only [hspent, true_or, if_true]
      refine ⟨.zero (.inr (by omega)), ?_⟩
      simp [RunState.of, spentIn, hspent]
    cases hrunning : console.cpu.paused with
    | true =>
      simp only [hspent, or_true, if_true, if_false]
      refine ⟨.zero (.inl hrunning), ?_⟩
      simp [RunState.of, spentIn, hspent]
    | false =>
      have hleft : (console.step.2.bus.stall = 0 ∧ budget < spent + console.step.1 + steps) ∨
          budget + 1 < spent + console.step.1 + steps ∨ (console.step.2.cpu.paused = true ∧ 0 < steps) := by
        obtain ⟨hstall, hfuel⟩ | hfuel | ⟨hpaused, -⟩ := hsteps
        · obtain hleast | hpaused := step_progress hrunning hstall
          · left
            exact ⟨step_collects hrunning, by omega⟩
          · right
            right
            exact ⟨hpaused, by omega⟩
        · left
          exact ⟨step_collects hrunning, by omega⟩
        · rw [hrunning] at hpaused
          cases hpaused
      obtain ⟨hstops, hrun⟩ := ih (spent + console.step.1) console.step.2 hleft
      rw [← Nat.sub_sub] at hstops
      simp only [hspent, or_self, if_false, Bool.false_eq_true]
      refine ⟨hstops.succ hrunning (by omega), ?_⟩
      rw [spentIn, ← Nat.add_assoc]
      exact hrun

theorem runCycles_stepped (console : Console π) (budget : Nat) :
    (console.runCycles budget).2 = console.stepped (console.stepsIn budget) :=
  runFrom_stepped budget (budget + 2) 0 console

theorem runCycles_stops (console : Console π) (budget : Nat) :
    let n := console.stepsIn budget
    StopsAfter budget n console ∧
      console.runCycles budget = (RunState.of budget (console.spentIn n), console.stepped n) := by
  obtain ⟨hstops, hstate⟩ := runFrom_stops budget (budget + 2) 0 console (.inr (.inl (by omega)))
  rw [Nat.zero_add] at hstate
  exact ⟨hstops, Prod.ext hstate (console.runCycles_stepped budget)⟩

/-! ## No stall is left behind -/

theorem runFrom_stall (budget steps spent : Nat) {console : Console π} (h : console.bus.stall = 0) :
    (runFrom budget steps spent console).2.bus.stall = 0 :=
  runFrom_keeps (P := fun console => console.bus.stall = 0) (fun _ => step_stall) budget steps spent h

omit [VideoUnit π] in
theorem hblank_stall (console : Console π) (scanline : UInt16) :
    (console.hblank scanline).bus.stall = console.bus.stall := by
  change (ConsoleBus.hblankCartridge _ scanline).2.stall = _
  unfold ConsoleBus.hblankCartridge
  split <;> rfl

omit [VideoUnit π] in
theorem load_stall {console console' : Console π} {s : Snapshot} (hl : console.load s = .ok console') :
    console'.bus.stall = console.bus.stall := by
  obtain ⟨-, hl⟩ := load_ok hl
  obtain ⟨-, -, -, -, -, -, rfl⟩ := loadContents_ok hl
  rfl

/-- **Only a host that writes to the bus itself leaves a stall behind.** -/
theorem respond_stall {console : Console π} (h : console.bus.stall = 0) {action : HostAction π}
    (ha : action.writesBus = false) : (console.respond action).2.bus.stall = 0 := by
  cases action with
  | step => exact step_stall h
  | run budget => exact runFrom_stall budget _ 0 h
  | hblank scanline => exact (console.hblank_stall scanline).trans h
  | nmi => exact (console.cpu.nmi_stall console.bus).trans h
  | reset => exact console.cpu.reset_stall console.bus.reset
  | press | pause | setBreakpoints | setWatchpoints | attachVideo | assign | writePattern => exact h
  | read address => exact (ConsoleBus.read_stall console.bus address).trans h
  | write => cases ha
  | load s =>
    simp only [respond]
    split
    · next hl => exact (load_stall hl).trans h
    · exact h

/-- **A console driven through its operations never owes a stall** between two of them. -/
theorem Reachable.stall {source : Option CartridgeSource} {console : Console π}
    (h : Reachable (fun action => action.writesBus = false) source console) : console.bus.stall = 0 := by
  induction h with
  | new video debug => rfl
  | @insert _ console _ _ cartridge _ _ _ =>
    exact console.cpu.reset_stall (console.bus.insert cartridge).reset
  | act _ ha ih => exact respond_stall ih ha

/-- **A run ends, where iterated steps do, within 526 cycles of its budget.**  The steps it consists of are those taken
until the processor pauses or the budget is reached; the answer says which, and how many cycles they spent, which 64 bits
hold if the budget is 527 below their range.  By so many the counter has gone on, modulo the range of its word, and so
exactly as long as it does not reach it.  Each step of a running processor spends at most 527 cycles, and two at least
unless it pauses; it collects the stall of the transfer that its instruction starts, and leaves none behind. -/
theorem Reachable.runCycles_ends {source : Option CartridgeSource} {console : Console π}
    (h : Reachable (fun action => action.writesBus = false) source console) :
    (∀ budget,
      let run := console.runCycles budget
      (∃ n, StopsAfter budget n console ∧ run = (RunState.of budget (console.spentIn n), console.stepped n)) ∧
      (∀ c, run.1 = .completed c → budget ≤ c ∧ c ≤ budget + 526 ∧ (budget = 0 → c = 0)) ∧
      (∀ c, run.1 = .paused c → c < budget ∧ run.2.cpu.paused = true) ∧
      (budget + 527 < UInt64.size → run.1.cycles < UInt64.size) ∧
      run.2.cycles = console.cycles + UInt64.ofNat run.1.cycles ∧
      (console.cycles + run.1.cycles < UInt64.size → (run.2.cycles : Nat) = console.cycles + run.1.cycles)) ∧
    (console.cpu.paused = false →
      let taken := console.takeIrq
      (console.step.1 : Nat) ≤ 527 ∧ (2 ≤ (console.step.1 : Nat) ∨ console.step.2.cpu.paused = true) ∧
      (console.step.1 : Nat) = (if console.irq && !console.cpu.registers.p.interruptDisable then 7 else 0) +
        (taken.2.cpu.step taken.2.bus).1 + if taken.2.cpu.startsTransfer taken.2.bus then 513 else 0) ∧
    console.step.2.bus.stall = 0 := by
  have hstall := h.stall
  refine ⟨fun budget => ?_, fun hrunning => ?_, step_stall hstall⟩
  · obtain ⟨hstops, hrun⟩ := console.runCycles_stops budget
    have hspent := hstops.spentIn_le hstall
    have hcounted := stepped_counts (console.stepsIn budget) console
    dsimp only
    rw [hrun]
    refine ⟨⟨_, hstops, rfl⟩, fun c hc => ?_, fun c hc => ?_, fun hbudget => ?_, ?_, fun hrange => ?_⟩
    · obtain ⟨rfl, hreached⟩ := RunState.of_completed hc
      refine ⟨hreached, ?_, fun hzero => ?_⟩
      · split at hspent <;> omega
      · rw [if_pos hzero] at hspent
        omega
    · obtain ⟨rfl, hleft⟩ := RunState.of_paused hc
      obtain hpaused | hreached := hstops.ended
      · exact ⟨hleft, hpaused⟩
      · omega
    · rw [RunState.cycles_of]
      split at hspent <;> omega
    · rw [RunState.cycles_of]
      exact hcounted
    · rw [RunState.cycles_of] at hrange ⊢
      rw [hcounted, UInt64.toNat_add, UInt64.toNat_ofNat', Nat.add_mod_mod]
      exact Nat.mod_eq_of_lt hrange
  · exact ⟨step_spent_le hstall, step_progress hrunning hstall, step_spent hrunning hstall⟩

/-- A program that starts a sprite transfer and then comes to an unmapped code.  The transfer carries a budget of 100 to
519 cycles; a budget of 1000 is not used up when the code pauses the processor, after as many. -/
theorem runCycles_ends_transfer :
    let program : List (UInt16 × UInt8) := [(0, 0xA9), (1, 0x80), (2, 0x8D), (3, 0x14), (4, 0x40), (5, 0x02)]
    let author := program.foldl (fun console byte => (console.respond (.write byte.1 byte.2)).2)
      (initial {} false : Console VideoLatch)
    let console := ((initial {} false : Console VideoLatch).respond (.load author.save)).2
    Reachable (fun action => action.writesBus = false) none console ∧
      (console.step.2.step.1 : Nat) = 4 + 513 ∧ console.step.2.step.2.bus.stall = 0 ∧
      (console.runCycles 100).1 = .completed 519 ∧ 519 ≤ 100 + 526 ∧ ((console.runCycles 100).2.cycles : Nat) = 519 ∧
      (console.runCycles 1000).1 = .paused 519 ∧ (console.runCycles 1000).2.cpu.paused = true ∧
      ((console.runCycles 1000).2.cycles : Nat) = 519 := by
  intro program author console
  have hreachable : Reachable (fun action => action.writesBus = false) none console := .act (.new _ false) rfl
  have hfresh : (initial {} false : Console VideoLatch).bus.Genuine none := ⟨Channels.Genuine.initial, .none⟩
  have hauthor : author.bus.Genuine none :=
    program.foldlRecOn (motive := fun console : Console VideoLatch => console.bus.Genuine none) _ hfresh fun _ h byte _ =>
      respond_genuine h (.write byte.1 byte.2)
  -- what the load leaves is evaluated without the checks of the load
  have hloaded : console = (initial {} false).takeOver author := by
    simp only [console, respond, load_save hauthor rfl hfresh]
  -- the second step stores to the transfer's register
  have hsecond : Reachable (fun action => action.writesBus = false) none (console.respond .step).2 := .act hreachable rfl
  simp only [respond] at hsecond
  obtain ⟨-, hstep, hstall⟩ := hsecond.runCycles_ends
  obtain ⟨-, -, hspent⟩ := hstep (by rw [hloaded]; decide +kernel)
  have hparts : (if console.step.2.irq && !console.step.2.cpu.registers.p.interruptDisable then 7 else 0) = 0 ∧
      (console.step.2.takeIrq.2.cpu.step console.step.2.takeIrq.2.bus).1 = 4 ∧
      console.step.2.takeIrq.2.cpu.startsTransfer console.step.2.takeIrq.2.bus = true := by
    rw [hloaded]
    decide +kernel
  rw [hparts.1, hparts.2.1, if_pos hparts.2.2] at hspent
  obtain ⟨hruns, -⟩ := hreachable.runCycles_ends
  have hcounted : (console.cycles : Nat) = 0 := by
    rw [hloaded]
    rfl
  have hused : (console.runCycles 100).1 = .completed 519 := by
    rw [hloaded]
    decide +kernel
  have hleft : (console.runCycles 1000).1 = .paused 519 := by
    rw [hloaded]
    decide +kernel
  obtain ⟨-, hcompleted, -, -, -, hcounter⟩ := hruns 100
  obtain ⟨-, -, hpaused, -, -, hcounter'⟩ := hruns 1000
  rw [hused, hcounted] at hcounter
  rw [hleft, hcounted] at hcounter'
  exact ⟨hreachable, hspent, hstall, hused, (hcompleted 519 hused).2.1, hcounter (by decide), hleft, (hpaused 519 hleft).2,
    hcounter' (by decide)⟩

end Console
end NesConsole
