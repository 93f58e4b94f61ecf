import Mathlib.Data.List.DropRight
import NesConsole.Console.Basic
import NesConsole.Proofs.Processor.Pausing
/-!
# The history is the end of the trace

The trace of a run is a list without bound: what every event since the last reset adds to it, in order.  The history keeps
the last lines of that list, as many as its capacity admits, because each write keeps one line more and drops what is too
old (`History.Holds.write`).  So what is asked for as the recent steps is the end of the trace (`Processor.recentSteps_trace`).
-/
namespace NesConsole

/-! ## A bounded history of an unbounded list -/

namespace History

/-- A history before its first write. -/
def empty (capacity : Nat) : History := { capacity, newest := [], bounded := Nat.zero_le _ }

/-- The history holds the last lines of the list, as many as it has room for. -/
def Holds (history : History) (lines : List String) : Prop :=
  history.newest = lines.reverse.take history.capacity

variable {history : History} {lines : List String}

theorem holds_empty (capacity : Nat) : (empty capacity).Holds [] := List.take_nil.symm

theorem holds_clear (history : History) : history.clear.Holds [] := holds_empty history.capacity

/-- **One line more pushes out what is too old.** -/
theorem Holds.write (h : history.Holds lines) (line : String) : (history.write line).Holds (lines ++ [line]) := by
  have hnewest : history.newest = lines.reverse.take history.capacity := h
  show (line :: history.newest).take history.capacity = (lines ++ [line]).reverse.take history.capacity
  rw [List.reverse_append, List.reverse_singleton, List.singleton_append, hnewest]
  cases history.capacity with
  | zero => rfl
  | succ room => rw [List.take_succ_cons, List.take_succ_cons, List.take_take, Nat.min_eq_left (Nat.le_succ room)]

theorem Holds.writes (h : history.Holds lines) (more : List String) :
    (more.foldl History.write history).Holds (lines ++ more) := by
  induction more generalizing history lines with
  | nil => rwa [List.append_nil]
  | cons line more ih =>
    rw [← List.singleton_append, ← List.append_assoc]
    exact ih (h.write line)

theorem Holds.recent (h : history.Holds lines) (count : Nat) :
    history.recent count = lines.rtake (min count history.capacity) := by
  have hnewest : history.newest = lines.reverse.take history.capacity := h
  rw [History.recent, hnewest, List.take_take, List.rtake_eq_reverse_take_reverse]

theorem writes_capacity (history : History) (more : List String) :
    (more.foldl write history).capacity = history.capacity := by
  induction more generalizing history with
  | nil => rfl
  | cons line more ih => exact ih (history.write line)

end History

/-! ## Traces -/

/-- A processor and its bus when something is asked of it. -/
structure ProcessorMoment (β : Type) where
  cpu : Processor
  bus : β
  event : ProcessorEvent

namespace ProcessorMoment

variable {β : Type}

def isReset (moment : ProcessorMoment β) : Bool :=
  match moment.event with
  | .reset => true
  | .step | .nmi | .irq => false

/-- What the event adds to a trace: a step the listing of its instruction, as memory is when it begins, and an interrupt
that is entered the address where it came. -/
def lines [Bus β] (moment : ProcessorMoment β) : List String :=
  let pc := moment.cpu.registers.pc
  match moment.event with
  | .step => [((Disassembly.line pc).perform moment.bus).1]
  | .nmi => ["NMI occurred at pc=" ++ hexWord pc]
  | .irq => if moment.cpu.registers.p.interruptDisable then [] else ["IRQ occurred at pc=" ++ hexWord pc]
  | .reset => []

end ProcessorMoment

namespace Processor

variable {β : Type} [Bus β]

def moments (cpu : Processor) (bus : β) : List ProcessorEvent → List (ProcessorMoment β)
  | [] => []
  | event :: events =>
    let next := (cpu.respond bus event).2
    { cpu, bus, event } :: next.1.moments next.2 events

/-- The lines of all events behind the last reset. -/
def trace (cpu : Processor) (bus : β) (events : List ProcessorEvent) : List String :=
  ((cpu.moments bus events).rtakeWhile fun moment => !moment.isReset).flatMap ProcessorMoment.lines

theorem run_snoc (cpu : Processor) (bus : β) (events : List ProcessorEvent) (event : ProcessorEvent) :
    (cpu.run bus (events ++ [event])).2 = ((cpu.run bus events).2.1.respond (cpu.run bus events).2.2 event).2 := by
  induction events generalizing cpu bus with
  | nil => rfl
  | cons first events ih => exact ih (cpu.respond bus first).2.1 (cpu.respond bus first).2.2

theorem moments_snoc (cpu : Processor) (bus : β) (events : List ProcessorEvent) (event : ProcessorEvent) :
    cpu.moments bus (events ++ [event]) =
      cpu.moments bus events ++ [{ cpu := (cpu.run bus events).2.1, bus := (cpu.run bus events).2.2, event }] := by
  induction events generalizing cpu bus with
  | nil => rfl
  | cons first events ih => exact congrArg (List.cons _) (ih (cpu.respond bus first).2.1 (cpu.respond bus first).2.2)

/-- **A trace begins anew at a reset**, and grows by the lines of any other event. -/
theorem trace_snoc (cpu : Processor) (bus : β) (events : List ProcessorEvent) (event : ProcessorEvent) :
    let moment : ProcessorMoment β := { cpu := (cpu.run bus events).2.1, bus := (cpu.run bus events).2.2, event }
    cpu.trace bus (events ++ [event]) = if moment.isReset then [] else cpu.trace bus events ++ moment.lines := by
  intro moment
  unfold trace
  rw [moments_snoc, List.rtakeWhile_concat]
  cases hreset : moment.isReset with
  | true => rfl
  | false => exact List.flatMap_append.trans (congrArg _ (List.flatMap_singleton _ _))

/-! ## What an event does to the history -/

theorem note_history (cpu : Processor) (line : String) :
    (cpu.note line).history = (if cpu.debug then [line] else []).foldl History.write cpu.history := by
  unfold note
  split <;> rfl

theorem noteStep_noted (cpu : Processor) (bus : β) :
    (cpu.noteStep bus).1 = cpu.note ((Disassembly.line cpu.registers.pc).perform bus).1 := by
  unfold noteStep
  split
  · rfl
  · next hoff => rw [note, if_neg hoff]

theorem conclude_log (cpu : Processor) (start : UInt16) (fetched : Fetched) :
    (cpu.conclude start fetched).2.debug = cpu.debug ∧ (cpu.conclude start fetched).2.history = cpu.history := by
  cases fetched with
  | unmapped code => exact ⟨rfl, rfl⟩
  | executed i behind effect pageCrossed => cases effect <;> exact ⟨rfl, rfl⟩

/-- **In debug mode an event writes its lines into the history**, and a reset clears it.  Nothing else is written, and the
mode stays as it is. -/
theorem respond_log (cpu : Processor) (bus : β) (event : ProcessorEvent) :
    let moment : ProcessorMoment β := { cpu, bus, event }
    (cpu.respond bus event).2.1.debug = cpu.debug ∧
      (cpu.respond bus event).2.1.history =
        if moment.isReset then cpu.history.clear
        else (if cpu.debug then moment.lines else []).foldl History.write cpu.history := by
  cases event with
  | step =>
    obtain ⟨history, hnoted⟩ := cpu.noteStep_eq bus
    obtain ⟨hdebug, hhistory⟩ := (cpu.watched bus).conclude_log cpu.registers.pc (cpu.fetched bus).1
    simp only [respond, step_performed]
    refine ⟨?_, ?_⟩
    · rw [hdebug, watched, hnoted]
    · rw [hhistory]
      show (cpu.noteStep bus).1.history = _
      rw [noteStep_noted]
      exact cpu.note_history _
  | nmi =>
    obtain ⟨history, hnoted⟩ := cpu.note_eq ("NMI occurred at pc=" ++ hexWord cpu.registers.pc)
    simp only [respond, nmi, exchange_eq]
    refine ⟨?_, ?_⟩
    · rw [hnoted]
    · exact cpu.note_history _
  | irq =>
    obtain ⟨history, hnoted⟩ := cpu.note_eq ("IRQ occurred at pc=" ++ hexWord cpu.registers.pc)
    by_cases hrefused : cpu.registers.p.interruptDisable = true
    · simp [respond, requestIrq, hrefused, ProcessorMoment.isReset, ProcessorMoment.lines]
    · simp only [respond, requestIrq, if_neg hrefused, exchange_eq, ProcessorMoment.lines]
      refine ⟨?_, ?_⟩
      · rw [hnoted]
      · exact cpu.note_history _
  | reset => exact ⟨rfl, rfl⟩

theorem run_debug (cpu : Processor) (bus : β) (events : List ProcessorEvent) :
    (cpu.run bus events).2.1.debug = cpu.debug := by
  induction events generalizing cpu bus with
  | nil => rfl
  | cons event events ih => exact (ih _ _).trans (cpu.respond_log bus event).1

/-- In debug mode the history holds the end of the trace, and otherwise nothing, by induction on the events from the last
one. -/
theorem run_holds {cpu : Processor} (h : cpu.history = History.empty historyCapacity) (bus : β)
    (events : List ProcessorEvent) :
    (cpu.run bus events).2.1.history.capacity = historyCapacity ∧
      (cpu.run bus events).2.1.history.Holds (if cpu.debug then cpu.trace bus events else []) := by
  induction events using List.reverseRecOn with
  | nil =>
    show cpu.history.capacity = historyCapacity ∧ cpu.history.Holds (if cpu.debug then [] else [])
    rw [h, ite_self]
    exact ⟨rfl, History.holds_empty historyCapacity⟩
  | append_singleton events event ih =>
    obtain ⟨hcapacity, hholds⟩ := ih
    obtain ⟨-, hhistory⟩ := (cpu.run bus events).2.1.respond_log (cpu.run bus events).2.2 event
    rw [run_snoc, hhistory, run_debug, trace_snoc]
    split
    · rw [ite_self]
      exact ⟨hcapacity, History.holds_clear _⟩
    · refine ⟨(History.writes_capacity _ _).trans hcapacity, ?_⟩
      cases hdebug : cpu.debug with
      | true =>
        rw [hdebug] at hholds
        exact hholds.writes _
      | false =>
        rw [hdebug] at hholds
        exact hholds

/-- **The recent steps are the end of the trace.**  In debug mode they are the last lines that the events since the last
reset gave, oldest first, as many as are asked for and at most 200: the listing of each instruction in memory as it was
when the step began, and a line for each interrupt that was entered.  Without debug mode there are none. -/
theorem recentSteps_trace {cpu : Processor} (h : cpu.history = History.empty historyCapacity) (bus : β)
    (events : List ProcessorEvent) (count : Nat) :
    (cpu.run bus events).2.1.recentSteps count =
      if cpu.debug then (cpu.trace bus events).rtake (min count 200) else [] := by
  obtain ⟨hcapacity, hholds⟩ := run_holds h bus events
  rw [recentSteps, hholds.recent, hcapacity]
  split
  · rfl
  · exact List.rtake_nil _

/-- A NOP at `$0000`, where a console without a cartridge starts.  Of the request before the reset no line is left; the
one behind the NOP is refused. -/
theorem recentSteps_trace_reset :
    let cpu : Processor := { debug := true, history := History.empty historyCapacity }
    let bus := (Console.initial ({} : VideoLatch) true).bus.write 0 0xEA
    cpu.history = History.empty historyCapacity ∧
      (cpu.run bus [.irq, .reset, .step, .irq, .nmi]).2.1.recentSteps 5 =
        ["0000: EA         NOP", "NMI occurred at pc=0001"] := by
  intro cpu bus
  have hfresh : cpu.history = History.empty historyCapacity := rfl
  refine ⟨hfresh, ?_⟩
  rw [recentSteps_trace hfresh]
  decide +kernel

end Processor
end NesConsole
