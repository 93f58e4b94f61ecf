import NesConsole.Proofs.Accesses
/-!
# Processors on a copied bus

A processor sees a bus only through its reads and writes.  If a map between two kinds of bus carries these over
(`Embeds`), it carries over whatever a processor does: exchanges first, by induction on them, and then each of the
processor's operations.
-/
namespace NesConsole

/-- On the states that `P` holds of, and keeps to, `f` carries reads and writes over. -/
structure Embeds {β γ : Type} [Bus β] [Bus γ] (P : β → Prop) (f : β → γ) : Prop where
  keeps : Keeps P
  read : ∀ bus address, P bus → Bus.read (f bus) address = ((Bus.read bus address).1, f (Bus.read bus address).2)
  write : ∀ bus address value, P bus → Bus.write (f bus) address value = f (Bus.write bus address value)

namespace Embeds

variable {α β γ : Type} [Bus β] [Bus γ] {P : β → Prop} {f : β → γ} {bus : β}

theorem perform (m : Embeds P f) (e : Exchange α) (h : P bus) :
    e.perform (f bus) = ((e.perform bus).1, f (e.perform bus).2) := by
  induction e generalizing bus with
  | done => rfl
  | read address next ih =>
    rw [Exchange.perform, m.read bus address h]
    exact ih _ (m.keeps.read bus address h)
  | write address value next ih =>
    rw [Exchange.perform, m.write bus address value h]
    exact ih (m.keeps.write bus address value h)

theorem accesses (m : Embeds P f) (e : Exchange α) (h : P bus) : e.accesses (f bus) = e.accesses bus := by
  induction e generalizing bus with
  | done => rfl
  | read address next ih =>
    rw [Exchange.accesses, m.read bus address h]
    exact congrArg _ (ih _ (m.keeps.read bus address h))
  | write address value next ih =>
    rw [Exchange.accesses, m.write bus address value h]
    exact congrArg _ (ih (m.keeps.write bus address value h))

theorem exchange (m : Embeds P f) (cpu : Processor) (e : Exchange α) (h : P bus) :
    cpu.exchange e (f bus) =
      ((cpu.exchange e bus).1, (cpu.exchange e bus).2.1, f (cpu.exchange e bus).2.2) := by
  simp only [Processor.exchange_eq, m.perform e h, m.accesses e h]

theorem noteStep (m : Embeds P f) (cpu : Processor) (h : P bus) :
    cpu.noteStep (f bus) = ((cpu.noteStep bus).1, f (cpu.noteStep bus).2) := by
  unfold Processor.noteStep
  split
  · rw [m.perform _ h]
  · rfl

theorem fetched (m : Embeds P f) (cpu : Processor) (h : P bus) :
    cpu.fetched (f bus) = ((cpu.fetched bus).1, f (cpu.fetched bus).2) := by
  unfold Processor.fetched Processor.listed
  rw [m.noteStep cpu h]
  exact m.perform _ (m.keeps.noteStep cpu h)

theorem step (m : Embeds P f) (cpu : Processor) (h : P bus) :
    cpu.step (f bus) = ((cpu.step bus).1, (cpu.step bus).2.1, f (cpu.step bus).2.2) := by
  have hnoted := m.keeps.noteStep cpu h
  simp only [Processor.step_eq, m.noteStep cpu h, m.exchange _ _ hnoted]

theorem reset (m : Embeds P f) (cpu : Processor) (h : P bus) :
    cpu.reset (f bus) = ((cpu.reset bus).1, f (cpu.reset bus).2) := by
  unfold Processor.reset
  rw [m.exchange cpu _ h]

theorem nmi (m : Embeds P f) (cpu : Processor) (h : P bus) :
    cpu.nmi (f bus) = ((cpu.nmi bus).1, f (cpu.nmi bus).2) := by
  unfold Processor.nmi
  dsimp only
  rw [m.exchange _ _ h]

theorem requestIrq (m : Embeds P f) (cpu : Processor) (h : P bus) :
    cpu.requestIrq (f bus) =
      ((cpu.requestIrq bus).1, (cpu.requestIrq bus).2.1, f (cpu.requestIrq bus).2.2) := by
  unfold Processor.requestIrq
  split
  · rfl
  · dsimp only
    rw [m.exchange _ _ h]

end Embeds
end NesConsole
