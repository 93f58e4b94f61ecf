import NesConsole.Proofs.Processor.Reserved
/-!
# The accesses of an exchange

`Exchange.accesses` lists what an exchange asks of a bus, each access with its byte.  What a watch adds to an exchange is
read off that list: the processor pauses exactly if one of the accesses hits a watchpoint (`Exchange.watched_eq`).  So a
step can be carried out without the watch, and be paused afterwards (`Processor.step_performed`).
-/
namespace NesConsole

inductive Access where
  | read (address : UInt16) (value : UInt8)
  | write (address : UInt16) (value : UInt8)
  deriving DecidableEq

def Watchpoints.hits (watch : Watchpoints) : Access → Bool
  | .read address _ => watch.watchesRead address
  | .write address _ => watch.watchesWrite address

namespace Exchange

variable {α γ β : Type} [Bus β]

def accesses : Exchange α → β → List Access
  | done _, _ => []
  | read address next, bus =>
    let (value, bus) := Bus.read bus address
    .read address value :: (next value).accesses bus
  | write address value next, bus => .write address value :: next.accesses (Bus.write bus address value)

@[simp] theorem accesses_pure (a : α) (bus : β) : accesses (pure a) bus = [] := rfl

@[simp] theorem accesses_byte (address : UInt16) (bus : β) :
    (byte address).accesses bus = [.read address (Bus.read bus address).1] := rfl

@[simp] theorem accesses_store (address : UInt16) (value : UInt8) (bus : β) :
    (store address value).accesses bus = [.write address value] := rfl

theorem perform_seq (e : Exchange α) (f : α → Exchange γ) (bus : β) :
    (e >>= f).perform bus = (f (e.perform bus).1).perform (e.perform bus).2 :=
  e.perform_bind f bus

/-- **What follows an exchange adds its own accesses**, made to the bus that the exchange leaves behind. -/
theorem accesses_seq (e : Exchange α) (f : α → Exchange γ) (bus : β) :
    (e >>= f).accesses bus = e.accesses bus ++ (f (e.perform bus).1).accesses (e.perform bus).2 := by
  induction e generalizing bus with
  | done => rfl
  | read address next ih => exact congrArg (List.cons _) (ih _ _)
  | write address value next ih => exact congrArg (List.cons _) (ih _)

/-- **A watch on an exchange only pauses**, and does so exactly if an access hits a watchpoint. -/
theorem watched_eq (watch : Watchpoints) (e : Exchange α) (paused : Bool) (bus : β) :
    e.watched watch paused bus =
      ((e.perform bus).1, paused || (e.accesses bus).any watch.hits, (e.perform bus).2) := by
  induction e generalizing paused bus with
  | done => simp [watched, perform, accesses]
  | read address next ih => simp [watched, perform, accesses, ih, Watchpoints.hits, Bool.or_assoc]
  | write address value next ih => simp [watched, perform, accesses, ih, Watchpoints.hits, Bool.or_assoc]

end Exchange

namespace Processor

variable {α β : Type} [Bus β]

/-- The bus that the instruction to come finds, which in debug mode its listing line was read from. -/
def listed (cpu : Processor) (bus : β) : β := (cpu.noteStep bus).2

def accesses (cpu : Processor) (bus : β) : List Access :=
  cpu.registers.instruction.accesses (cpu.listed bus)

/-- What the instruction to come ends in, and the bus behind it. -/
def fetched (cpu : Processor) (bus : β) : Fetched × β :=
  cpu.registers.instruction.perform (cpu.listed bus)

/-- The processor when its instruction has made its accesses, but has not been concluded. -/
def watched (cpu : Processor) (bus : β) : Processor :=
  { (cpu.noteStep bus).1 with paused := cpu.paused || (cpu.accesses bus).any cpu.watchpoints.hits }

theorem exchange_eq (cpu : Processor) (e : Exchange α) (bus : β) :
    cpu.exchange e bus =
      ((e.perform bus).1, { cpu with paused := cpu.paused || (e.accesses bus).any cpu.watchpoints.hits },
        (e.perform bus).2) := by
  simp only [exchange, Exchange.watched_eq]

theorem note_eq (cpu : Processor) (line : String) : ∃ history, cpu.note line = { cpu with history } := by
  unfold note
  split
  · exact ⟨_, rfl⟩
  · exact ⟨cpu.history, rfl⟩

/-- A line in the history is all that listing a step changes. -/
theorem noteStep_eq (cpu : Processor) (bus : β) : ∃ history, (cpu.noteStep bus).1 = { cpu with history } := by
  unfold noteStep
  split
  · exact cpu.note_eq _
  · exact ⟨cpu.history, rfl⟩

/-- **A step, carried out**: the instruction makes its accesses, those may pause the processor, and what was fetched is
concluded. -/
theorem step_performed (cpu : Processor) (bus : β) :
    cpu.step bus =
      let concluded := (cpu.watched bus).conclude cpu.registers.pc (cpu.fetched bus).1
      (concluded.1, concluded.2, (cpu.fetched bus).2) := by
  obtain ⟨history, hnoted⟩ := cpu.noteStep_eq bus
  rw [step_eq]
  simp only [exchange_eq, watched, fetched, accesses, listed, hnoted]

end Processor
end NesConsole
