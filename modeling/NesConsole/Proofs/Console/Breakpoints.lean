import NesConsole.Proofs.Processor.Pausing
import NesConsole.Proofs.Console.InterruptLine
/-!
# Breakpoints hold

An instruction that ends at an enabled breakpoint leaves the console paused, and a paused console executes nothing until
the host resumes it, whatever else it is asked to do.  Address breakpoints are consulted there and nowhere else: entering
the non-maskable interrupt pauses at the breakpoint for that event, and entering the maskable one is part of a step, which
goes on with the first instruction of the handler (`Console.breakpoints_hold`).  Moments of a sequence of actions lead
from one to the next (`Console.moments_lead`), so what pauses at one of them is still paused at the next.
-/
namespace NesConsole

/-! ## What pauses a processor, and keeps it paused -/

namespace Processor

variable {β : Type} [Bus β] {cpu : Processor}

theorem step_stays_paused (bus : β) (h : cpu.paused = true) : (cpu.step bus).2.1.paused = true := by
  have hwatched : (cpu.watched bus).paused = true := by simp [watched, h]
  rw [step_performed]
  cases (cpu.fetched bus).1 with
  | unmapped code => rfl
  | executed i behind effect pageCrossed =>
    cases effect with
    | none => rfl
    | some effect => simp [conclude, settle, hwatched]

/-- **A step that ends at an enabled breakpoint pauses**, also if its opcode is unmapped. -/
theorem step_breaks (bus : β) (h : cpu.breakpoints.isEnabled (cpu.step bus).2.1.registers.pc = true) :
    (cpu.step bus).2.1.paused = true := by
  cases hrunning : cpu.paused with
  | true => exact step_stays_paused bus hrunning
  | false =>
    refine (step_paused_iff bus hrunning).2 ?_
    by_cases hdecode : Instruction.decode (cpu.opcode bus) = none
    · exact .inl hdecode
    · exact .inr (.inr ⟨hdecode, h⟩)

/-- **Entering the non-maskable interrupt asks no address breakpoint.** -/
theorem nmi_paused (cpu : Processor) (bus : β) :
    (cpu.nmi bus).1.paused = (cpu.paused ||
      ((Interrupt.nmi.enter cpu.registers.pc cpu.registers).accesses bus).any cpu.watchpoints.hits ||
      cpu.breakpoints.isEventEnabled .nmi) := by
  obtain ⟨history, hnoted⟩ := cpu.note_eq ("NMI occurred at pc=" ++ hexWord cpu.registers.pc)
  simp only [nmi, exchange_eq, hnoted]

theorem requestIrq_breakpoints (cpu : Processor) (bus : β) : (cpu.requestIrq bus).2.1.breakpoints = cpu.breakpoints := by
  obtain ⟨history, hnoted⟩ := cpu.note_eq ("IRQ occurred at pc=" ++ hexWord cpu.registers.pc)
  unfold requestIrq
  split
  · rfl
  · simp only [exchange_eq, hnoted]

theorem reset_stays_paused (bus : β) (h : cpu.paused = true) : (cpu.reset bus).1.paused = true := by
  simp [reset, exchange_eq, h]

end Processor

namespace Console

variable {π : Type} [VideoUnit π] {console : Console π}

theorem takeIrq_breakpoints (console : Console π) : console.takeIrq.2.cpu.breakpoints = console.cpu.breakpoints := by
  cases h : console.irq with
  | false => rw [takeIrq_of_clear h]
  | true =>
    rw [takeIrq_of_raised h]
    exact console.cpu.requestIrq_breakpoints console.bus

/-- What a step does before the instruction leaves the breakpoints alone. -/
theorem step_breaks (hrunning : console.cpu.paused = false)
    (h : console.cpu.breakpoints.isEnabled console.step.2.cpu.registers.pc = true) :
    console.step.2.cpu.paused = true := by
  rw [step_of_running hrunning] at h ⊢
  rw [← takeIrq_breakpoints] at h
  exact Processor.step_breaks console.takeIrq.2.bus h

/-- **Only resuming ends a pause.** -/
theorem respond_stays_paused (hpaused : console.cpu.paused = true) {action : HostAction π}
    (h : action ≠ .pause false) : (console.respond action).2.cpu.paused = true := by
  cases action with
  | step =>
    show console.step.2.cpu.paused = true
    rwa [step_of_paused hpaused]
  | run budget =>
    refine runFrom_keeps (P := fun console => console.cpu.paused = true) (fun console h => ?_) budget _ 0 hpaused
    rwa [step_of_paused h]
  | nmi =>
    show (console.cpu.nmi console.bus).1.paused = true
    rw [Processor.nmi_paused, hpaused, Bool.true_or, Bool.true_or]
  | reset => exact Processor.reset_stays_paused console.bus.reset hpaused
  | pause paused =>
    cases paused with
    | false => exact absurd rfl h
    | true => rfl
  | load s =>
    simp only [respond]
    cases hload : console.load s with
    | error e => exact hpaused
    | ok console' =>
      obtain ⟨-, -, -, -, -, -, rfl⟩ := loadContents_ok (load_ok hload).2
      exact hpaused
  | hblank | press | read | write | writePattern | setBreakpoints | setWatchpoints | attachVideo | assign => exact hpaused

end Console

/-! ## Moments in a row -/

namespace Moment

variable {π : Type}

/-- Whether an instruction is executed. -/
def executes (moment : Moment π) : Bool :=
  match moment.action with
  | .step => !moment.before.cpu.paused
  | _ => false

theorem executes_of_paused {moment : Moment π} (h : moment.before.cpu.paused = true) : moment.executes = false := by
  obtain ⟨before, action⟩ := moment
  cases action with
  | step => exact congrArg not h
  | _ => rfl

end Moment

namespace Console

variable {π : Type} [VideoUnit π] {console last : Console π}

/-- Each moment begins where the one before it ends. -/
def Leads : Console π → List (Moment π) → Console π → Prop
  | console, [], last => console = last
  | console, moment :: moments, last => moment.before = console ∧ Leads moment.after moments last

theorem leads_append {earlier later : List (Moment π)} :
    console.Leads (earlier ++ later) last ↔ ∃ middle, console.Leads earlier middle ∧ middle.Leads later last := by
  induction earlier generalizing console with
  | nil => simp [Leads]
  | cons moment earlier ih => simp only [List.cons_append, Leads, ih, and_assoc, exists_and_left]

theorem steps_lead (console : Console π) (n : Nat) :
    console.Leads ((List.range n).map fun i => { before := console.stepped i, action := .step }) (console.stepped n) := by
  induction n with
  | zero => rfl
  | succ n ih =>
    rw [List.range_succ, List.map_append]
    exact leads_append.2 ⟨console.stepped n, ih, rfl, (console.stepped_succ n).symm⟩

theorem momentsOf_lead (console : Console π) (action : HostAction π) :
    console.Leads (console.momentsOf action) (console.respond action).2 := by
  cases action with
  | run budget =>
    have hstepped : (console.respond (.run budget)).2 = console.stepped (console.stepsIn budget) :=
      console.runCycles_stepped budget
    rw [hstepped]
    exact console.steps_lead (console.stepsIn budget)
  | _ => exact ⟨rfl, rfl⟩

/-- **The moments of any actions lead through them.** -/
theorem moments_lead (console : Console π) (actions : List (HostAction π)) :
    console.Leads (console.moments actions) (console.following actions) := by
  induction actions generalizing console with
  | nil => rfl
  | cons action actions ih =>
    exact leads_append.2 ⟨_, console.momentsOf_lead action, ih (console.respond action).2⟩

/-- **From a pause to the next instruction executed the host resumes**, and up to there the console stays paused. -/
theorem Leads.resumes {between later : List (Moment π)} {departure : Moment π}
    (h : console.Leads (between ++ departure :: later) last) (hpaused : console.cpu.paused = true)
    (hexecutes : departure.executes = true) :
    ∃ held resume rest, between = held ++ resume :: rest ∧ (∀ moment ∈ held, moment.after.cpu.paused = true) ∧
      resume.before.cpu.paused = true ∧ resume.action = .pause false := by
  induction between generalizing console with
  | nil =>
    obtain ⟨rfl, -⟩ := h
    rw [Moment.executes_of_paused hpaused] at hexecutes
    cases hexecutes
  | cons moment between ih =>
    obtain ⟨rfl, hnext⟩ := h
    by_cases hresumes : moment.action = .pause false
    · exact ⟨[], moment, between, rfl, List.forall_mem_nil _, hpaused, hresumes⟩
    · have hafter : moment.after.cpu.paused = true := respond_stays_paused hpaused hresumes
      obtain ⟨held, resume, rest, rfl, hheld, hresume⟩ := ih hnext hafter
      exact ⟨moment :: held, resume, rest, rfl, List.forall_mem_cons.2 ⟨hafter, hheld⟩, hresume⟩

/-- **Breakpoints hold for instructions, and not for interrupt entries.**  Whatever a host does: an instruction that ends
at an enabled breakpoint leaves the console paused there; entering the non-maskable interrupt leaves it paused exactly if
it was, an access hits a watchpoint, or the breakpoint for that event is enabled; a step that enters the maskable one goes
on with the first instruction of the handler.  And from any moment that leaves the console paused to the next one that
executes an instruction, the host resumes a paused console. -/
theorem breakpoints_hold (console : Console π) (actions : List (HostAction π)) :
    (∀ moment ∈ console.moments actions, moment.executes = true →
      moment.before.cpu.breakpoints.isEnabled moment.after.cpu.registers.pc = true →
      moment.after.cpu.paused = true) ∧
    (∀ moment ∈ console.moments actions, moment.action = .nmi →
      let cpu := moment.before.cpu
      (moment.after.cpu.paused = true ↔ cpu.paused = true ∨
        (∃ access ∈ (Interrupt.nmi.enter cpu.registers.pc cpu.registers).accesses moment.before.bus,
          cpu.watchpoints.hits access = true) ∨
        cpu.breakpoints.isEventEnabled .nmi = true)) ∧
    (∀ moment ∈ console.moments actions, moment.enters = true → moment.before.EntersIrq) ∧
    (∀ earlier arrival between departure later,
      console.moments actions = earlier ++ arrival :: (between ++ departure :: later) →
      arrival.after.cpu.paused = true → departure.executes = true →
      ∃ held resume rest, between = held ++ resume :: rest ∧ (∀ moment ∈ held, moment.after.cpu.paused = true) ∧
        resume.before.cpu.paused = true ∧ resume.action = .pause false) := by
  refine ⟨?_, ?_, ?_, ?_⟩
  · rintro ⟨before, action⟩ - hexecutes hbreakpoint
    cases action with
    | step => exact step_breaks (Bool.not_eq_true' _ ▸ hexecutes) hbreakpoint
    | _ => cases hexecutes
  · rintro ⟨before, action⟩ - rfl
    show (before.cpu.nmi before.bus).1.paused = true ↔ _
    rw [Processor.nmi_paused, Bool.or_eq_true, Bool.or_eq_true, List.any_eq_true, or_assoc]
  · rintro ⟨before, action⟩ - henters
    cases action with
    | step => exact entersIrq henters
    | _ => cases henters
  · intro earlier arrival between departure later hsplit hpaused hexecutes
    have hlead := console.moments_lead actions
    rw [hsplit] at hlead
    obtain ⟨middle, -, -, hnext⟩ := leads_append.1 hlead
    exact hnext.resumes hpaused hexecutes

/-- A NOP below a breakpoint: the step stops there, an interrupt in the pause resumes nothing, the host does. -/
theorem breakpoints_hold_nop :
    let start : Console VideoLatch :=
      (initial {} false).following [.write 0 0xEA, .setBreakpoints (({} : Breakpoints).set 1 true)]
    let stopped := start.step.2
    stopped.cpu.registers.pc = 1 ∧ stopped.cpu.paused = true ∧
      ∃ (held : List (Moment VideoLatch)) (resume : Moment VideoLatch) (rest : List (Moment VideoLatch)),
        [⟨stopped, .nmi⟩, ⟨stopped.nmi, .pause false⟩] = held ++ resume :: rest ∧
        (∀ moment ∈ held, moment.after.cpu.paused = true) ∧
        resume.before.cpu.paused = true ∧ resume.action = .pause false := by
  intro start stopped
  have hpc : stopped.cpu.registers.pc = 1 := by decide +kernel
  have hexecutes : Moment.executes ⟨start, .step⟩ = true := by decide +kernel
  have hbreakpoint : start.cpu.breakpoints.isEnabled stopped.cpu.registers.pc = true := by decide +kernel
  -- what is left holds of any console
  clear_value start
  obtain ⟨hbreaks, -, -, hresumes⟩ := breakpoints_hold start [.step, .nmi, .pause false, .step]
  have hpaused : stopped.cpu.paused = true := hbreaks ⟨start, .step⟩ List.mem_cons_self hexecutes hbreakpoint
  have hmoments : start.moments [.step, .nmi, .pause false, .step] =
      [] ++ ⟨start, .step⟩ :: ([⟨stopped, .nmi⟩, ⟨stopped.nmi, .pause false⟩] ++
        ⟨(stopped.nmi).pause false, .step⟩ :: []) := by
    simp only [moments, momentsOf, respond, List.cons_append, List.nil_append, stopped]
  exact ⟨hpc, hpaused, hresumes _ _ _ _ _ hmoments hpaused rfl⟩

/-- **Interrupt entries pass a breakpoint**: with one at the first instruction of the handler, which is a NOP at `$0000`,
neither entry stops before it is executed. -/
theorem entries_pass_breakpoints :
    let start : Console VideoLatch := (initial {} false).following
      [.write 0 0xEA, .assign { s := 0xFF, pc := 0x0100 }, .setBreakpoints (({} : Breakpoints).set 0 true)]
    let raised := start.following [.write 0x4017 0, .hblank Apu.vblankScanline]
    start.cpu.breakpoints.isEnabled 0 = true ∧
      (start.nmi.cpu.registers.pc = 0 ∧ start.nmi.cpu.paused = false ∧
        start.nmi.step.2.cpu.registers.pc = 1 ∧ start.nmi.step.2.cpu.paused = false) ∧
      raised.takesIrq = true ∧ raised.takeIrq.2.cpu.registers.pc = 0 ∧
        raised.step.2.cpu.registers.pc = 1 ∧ raised.step.2.cpu.paused = false := by
  decide +kernel

end Console
end NesConsole
