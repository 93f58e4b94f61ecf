import NesConsole.FlatMemory
import NesConsole.Proofs.Processor.Stages
/-!
# Breakpoints and watchpoints only pause

Two processors of one program differ in nothing but their breakpoints, their watchpoints and their pause flags.  Asked
for the same events on the same bus they give the same answers, make the same accesses and stay processors of one program
(`SameProgram.respond` for one event, `SameProgram.run` for any number).  So the debugger shows in the pause flag alone,
and `Processor.step_paused_iff` says exactly when a step raises it.
-/
namespace NesConsole

inductive ProcessorEvent where
  | step
  | nmi
  | irq
  | reset

inductive ProcessorAnswer where
  | done
  | spent (cycles : Nat)
  | requested (accepted : Bool)
  deriving DecidableEq

namespace Processor

variable {β : Type} [Bus β]

def respond (cpu : Processor) (bus : β) : ProcessorEvent → ProcessorAnswer × Processor × β
  | .step => (.spent (cpu.step bus).1, (cpu.step bus).2)
  | .nmi => (.done, cpu.nmi bus)
  | .irq => (.requested (cpu.requestIrq bus).1, (cpu.requestIrq bus).2)
  | .reset => (.done, cpu.reset bus)

/-- The answers to the events, with the processor and the bus behind the last one. -/
def run (cpu : Processor) (bus : β) : List ProcessorEvent → List ProcessorAnswer × Processor × β
  | [] => ([], cpu, bus)
  | event :: events =>
    let (answer, cpu, bus) := cpu.respond bus event
    let (answers, cpu, bus) := cpu.run bus events
    (answer :: answers, cpu, bus)

/-- The processors differ at most in their breakpoints, watchpoints and pause flags. -/
structure SameProgram (a b : Processor) : Prop where
  registers : a.registers = b.registers
  fault : a.fault = b.fault
  debug : a.debug = b.debug
  history : a.history = b.history
  instructionAddress : a.instructionAddress = b.instructionAddress
  operation : a.operation = b.operation

namespace SameProgram

variable {a b : Processor}

theorem note (h : a.SameProgram b) (line : String) : (a.note line).SameProgram (b.note line) := by
  unfold Processor.note
  by_cases hd : b.debug = true
  · rw [if_pos hd, if_pos (h.debug.trans hd)]
    exact { h with history := by simp only [h.history] }
  · rw [if_neg hd, if_neg (h.debug ▸ hd)]
    exact h

theorem noteStep (h : a.SameProgram b) (bus : β) :
    (a.noteStep bus).1.SameProgram (b.noteStep bus).1 ∧ a.listed bus = b.listed bus := by
  unfold listed Processor.noteStep
  by_cases hd : b.debug = true
  · rw [if_pos hd, if_pos (h.debug.trans hd), h.registers]
    exact ⟨h.note _, rfl⟩
  · rw [if_neg hd, if_neg (h.debug ▸ hd)]
    exact ⟨h, rfl⟩

theorem fetched (h : a.SameProgram b) (bus : β) : a.fetched bus = b.fetched bus := by
  unfold Processor.fetched
  rw [h.registers, (h.noteStep bus).2]

theorem settle (h : a.SameProgram b) (behind : Registers) (effect : Option Effect) :
    (a.settle behind effect).SameProgram (b.settle behind effect) := by
  cases effect with
  | none =>
    refine { h with registers := rfl, fault := ?_ }
    simp only [Processor.settle, stop, h.operation, h.instructionAddress]
  | some effect => exact { h with registers := rfl }

theorem conclude (h : a.SameProgram b) (start : UInt16) (fetched : Fetched) :
    (a.conclude start fetched).1 = (b.conclude start fetched).1 ∧
      (a.conclude start fetched).2.SameProgram (b.conclude start fetched).2 := by
  cases fetched with
  | unmapped code =>
    refine ⟨rfl, { h with registers := ?_, fault := rfl, instructionAddress := rfl }⟩
    simp only [Processor.conclude, stop, h.registers]
  | executed i behind effect pageCrossed =>
    have hbegun : SameProgram { a with instructionAddress := start, operation := some i.operation }
        { b with instructionAddress := start, operation := some i.operation } :=
      { h with instructionAddress := rfl, operation := rfl }
    exact ⟨rfl, { hbegun.settle behind effect with }⟩

theorem step (h : a.SameProgram b) (bus : β) :
    (a.step bus).1 = (b.step bus).1 ∧ (a.step bus).2.1.SameProgram (b.step bus).2.1 ∧
      (a.step bus).2.2 = (b.step bus).2.2 := by
  have hwatched : (a.watched bus).SameProgram (b.watched bus) := { (h.noteStep bus).1 with }
  obtain ⟨hcycles, hcpu⟩ := hwatched.conclude b.registers.pc (b.fetched bus).1
  rw [step_performed, step_performed, h.fetched, h.registers]
  exact ⟨hcycles, hcpu, rfl⟩

/-- An exchange has the same end and leaves the same bus, whatever is watched. -/
theorem exchange {α : Type} (h : a.SameProgram b) {e e' : Exchange α} (he : e = e') (bus : β) :
    (a.exchange e bus).1 = (b.exchange e' bus).1 ∧ (a.exchange e bus).2.1.SameProgram (b.exchange e' bus).2.1 ∧
      (a.exchange e bus).2.2 = (b.exchange e' bus).2.2 := by
  subst he
  simp only [exchange_eq]
  exact ⟨trivial, { h with }, trivial⟩

theorem enter (h : a.SameProgram b) (interrupt : Interrupt) (line : String) (bus : β) :
    let entered := (a.note line).exchange (interrupt.enter a.registers.pc (a.note line).registers) bus
    let entered' := (b.note line).exchange (interrupt.enter b.registers.pc (b.note line).registers) bus
    entered.1 = entered'.1 ∧ entered.2.1.SameProgram entered'.2.1 ∧ entered.2.2 = entered'.2.2 := by
  apply (h.note line).exchange
  rw [h.registers, (h.note line).registers]

theorem nmi (h : a.SameProgram b) (bus : β) :
    (a.nmi bus).1.SameProgram (b.nmi bus).1 ∧ (a.nmi bus).2 = (b.nmi bus).2 := by
  obtain ⟨hregisters, hcpu, hbus⟩ := h.enter .nmi ("NMI occurred at pc=" ++ hexWord b.registers.pc) bus
  unfold Processor.nmi
  rw [h.registers] at *
  exact ⟨{ hcpu with registers := hregisters }, hbus⟩

theorem requestIrq (h : a.SameProgram b) (bus : β) :
    (a.requestIrq bus).1 = (b.requestIrq bus).1 ∧ (a.requestIrq bus).2.1.SameProgram (b.requestIrq bus).2.1 ∧
      (a.requestIrq bus).2.2 = (b.requestIrq bus).2.2 := by
  obtain ⟨hregisters, hcpu, hbus⟩ := h.enter .irq ("IRQ occurred at pc=" ++ hexWord b.registers.pc) bus
  unfold Processor.requestIrq
  rw [h.registers] at *
  by_cases hmasked : b.registers.p.interruptDisable = true
  · rw [if_pos hmasked, if_pos hmasked]
    exact ⟨rfl, h, rfl⟩
  · rw [if_neg hmasked, if_neg hmasked]
    exact ⟨rfl, { hcpu with registers := hregisters }, hbus⟩

theorem reset (h : a.SameProgram b) (bus : β) :
    (a.reset bus).1.SameProgram (b.reset bus).1 ∧ (a.reset bus).2 = (b.reset bus).2 := by
  obtain ⟨hregisters, hcpu, hbus⟩ := h.exchange (congrArg Registers.reset h.registers) bus
  refine ⟨{ hcpu with registers := hregisters, fault := rfl, operation := rfl, history := ?_ }, hbus⟩
  exact congrArg History.clear hcpu.history

/-- **One event is answered alike**, and leaves equal buses. -/
theorem respond (h : a.SameProgram b) (bus : β) (event : ProcessorEvent) :
    (a.respond bus event).1 = (b.respond bus event).1 ∧
      (a.respond bus event).2.1.SameProgram (b.respond bus event).2.1 ∧
      (a.respond bus event).2.2 = (b.respond bus event).2.2 := by
  cases event with
  | step =>
    obtain ⟨hcycles, hrest⟩ := h.step bus
    exact ⟨congrArg ProcessorAnswer.spent hcycles, hrest⟩
  | nmi => exact ⟨rfl, h.nmi bus⟩
  | irq =>
    obtain ⟨haccepted, hrest⟩ := h.requestIrq bus
    exact ⟨congrArg ProcessorAnswer.requested haccepted, hrest⟩
  | reset => exact ⟨rfl, h.reset bus⟩

/-- **Any events are answered alike**, by induction on them. -/
theorem run (h : a.SameProgram b) (bus : β) (events : List ProcessorEvent) :
    (a.run bus events).1 = (b.run bus events).1 ∧ (a.run bus events).2.1.SameProgram (b.run bus events).2.1 ∧
      (a.run bus events).2.2 = (b.run bus events).2.2 := by
  induction events generalizing a b bus with
  | nil => exact ⟨rfl, h, rfl⟩
  | cons event events ih =>
    obtain ⟨hanswer, hcpu, hbus⟩ := h.respond bus event
    obtain ⟨hanswers, hlast, hleft⟩ := ih hcpu (b.respond bus event).2.2
    simp only [Processor.run, hanswer, hbus, hanswers]
    exact ⟨trivial, hlast, hleft⟩

end SameProgram

/-! ## When a step pauses -/

/-- **A step pauses a running processor exactly if** its opcode is unmapped, an access hits a watchpoint, or the
instruction ends at an enabled breakpoint. -/
theorem step_paused_iff {cpu : Processor} (bus : β) (h : cpu.paused = false) :
    (cpu.step bus).2.1.paused = true ↔
      Instruction.decode (cpu.opcode bus) = none ∨ (∃ access ∈ cpu.accesses bus, cpu.watchpoints.hits access = true) ∨
        (Instruction.decode (cpu.opcode bus) ≠ none ∧
          cpu.breakpoints.isEnabled (cpu.step bus).2.1.registers.pc = true) := by
  have hregular := cpu.fetched_regular bus
  have hwatched : (cpu.watched bus).paused = (cpu.accesses bus).any cpu.watchpoints.hits := by simp [watched, h]
  have hbreakpoints : (cpu.watched bus).breakpoints = cpu.breakpoints := by
    obtain ⟨history, hnoted⟩ := cpu.noteStep_eq bus
    simp only [watched, hnoted]
  rw [step_performed, ← List.any_eq_true, ← hwatched, ← hbreakpoints]
  generalize (cpu.fetched bus).1 = fetched at hregular ⊢
  cases fetched with
  | unmapped code => simp [conclude, stop, hregular.2]
  | executed i behind effect pageCrossed =>
    obtain ⟨hdecode, heffect, -⟩ := hregular
    obtain ⟨effect, rfl⟩ := Option.isSome_iff_exists.1 heffect
    simp [conclude, settle, hdecode]

/-- **The debugger only pauses.**  Other breakpoints, watchpoints and pause flags leave every answer, the registers, the
fault, the history and the bus as they are, whatever a processor is asked to do; and a step pauses a running processor
exactly if its opcode is unmapped, an access hits a watchpoint, or the instruction ends at an enabled breakpoint. -/
theorem debugger_only_pauses (cpu : Processor) (bus : β) :
    (∀ (breakpoints : Breakpoints) (watchpoints : Watchpoints) (paused : Bool) (events : List ProcessorEvent),
      let run := cpu.run bus events
      let run' := Processor.run { cpu with breakpoints, watchpoints, paused } bus events
      run'.1 = run.1 ∧ run'.2.1.SameProgram run.2.1 ∧ run'.2.2 = run.2.2) ∧
    (cpu.paused = false →
      ((cpu.step bus).2.1.paused = true ↔
        Instruction.decode (cpu.opcode bus) = none ∨
          (∃ access ∈ cpu.accesses bus, cpu.watchpoints.hits access = true) ∨
          (Instruction.decode (cpu.opcode bus) ≠ none ∧
            cpu.breakpoints.isEnabled (cpu.step bus).2.1.registers.pc = true))) := by
  constructor
  · intro breakpoints watchpoints paused events
    have hsame : SameProgram { cpu with breakpoints, watchpoints, paused } cpu := ⟨rfl, rfl, rfl, rfl, rfl, rfl⟩
    exact hsame.run bus events
  · intro hrunning
    exact step_paused_iff bus hrunning

/-- A load whose opcode is watched pauses, as fetching it is a read like any other; so does one that ends at an enabled
breakpoint, which spends what it did without and has loaded its byte.  With the breakpoint cleared again it goes on. -/
theorem debugger_only_pauses_behind_load :
    let memory := FlatMemory.withProgram 0 [0xA9, 0x2A]
    let cpu := starting {}
    let watching : Processor := { cpu with watchpoints := cpu.watchpoints.setRead 0 true }
    let stopping : Processor := { cpu with breakpoints := cpu.breakpoints.set 2 true }
    let going : Processor := { cpu with breakpoints := stopping.breakpoints.set 2 false }
    (watching.step memory).2.1.paused = true ∧ (stopping.step memory).2.1.paused = true ∧
      (stopping.step memory).1 = 2 ∧ (stopping.step memory).2.1.registers.a = 0x2A ∧
      (going.step memory).2.1.paused = false := by
  intro memory cpu watching stopping going
  have hdecode : Instruction.decode (cpu.opcode memory) ≠ none := by decide +kernel
  have hpc : (cpu.step memory).2.1.registers.pc = 2 := by decide +kernel
  have hspent : (cpu.step memory).1 = 2 := by decide +kernel
  have hloaded : (cpu.step memory).2.1.registers.a = 0x2A := by decide +kernel
  have hsame (breakpoints : Breakpoints) (watchpoints : Watchpoints) := (debugger_only_pauses cpu memory).1 breakpoints
    watchpoints false [.step]
  obtain ⟨hanswer, hstopped, -⟩ := hsame stopping.breakpoints {}
  obtain ⟨-, hgone, -⟩ := hsame going.breakpoints {}
  refine ⟨?_, ?_, ?_, ?_, ?_⟩
  · refine ((debugger_only_pauses watching memory).2 rfl).2 (.inr (.inl ⟨.read 0 (cpu.opcode memory), ?_, ?_⟩))
    · exact List.mem_cons_self
    · exact Watchpoints.watchesRead_setRead _ 0 0 true
  · refine ((debugger_only_pauses stopping memory).2 rfl).2 (.inr (.inr ⟨hdecode, ?_⟩))
    rw [show (stopping.step memory).2.1.registers.pc = 2 from (congrArg Registers.pc hstopped.registers).trans hpc]
    exact Breakpoints.isEnabled_set _ 2 2 true
  · have hanswers : [ProcessorAnswer.spent (stopping.step memory).1] = [.spent (cpu.step memory).1] := hanswer
    rw [List.singleton_inj, ProcessorAnswer.spent.injEq] at hanswers
    exact hanswers.trans hspent
  · exact (congrArg Registers.a hstopped.registers).trans hloaded
  · rw [← Bool.not_eq_true, (debugger_only_pauses going memory).2 rfl]
    rintro (hunmapped | ⟨access, -, hhit⟩ | ⟨-, hset⟩)
    · exact hdecode hunmapped
    · cases access <;> cases hhit
    · rw [show (going.step memory).2.1.registers.pc = 2 from (congrArg Registers.pc hgone.registers).trans hpc,
        Breakpoints.isEnabled_set] at hset
      cases hset

end Processor
end NesConsole
