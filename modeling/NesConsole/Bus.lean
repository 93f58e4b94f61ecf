/-!
# Buses and exchanges with them

A `Bus` is anything a processor can read bytes from and write bytes to; reading may change it.  An `Exchange` is what a
processor asks of a bus, as data: a finite tree of reads and writes in which each read branches on the byte it gets.
What an instruction asks is thus fixed before any bus is chosen, and one exchange can be carried out on different buses,
with and without a watch on its accesses.
-/
namespace NesConsole

class Bus (β : Type) where
  read : β → UInt16 → UInt8 × β
  write : β → UInt16 → UInt8 → β

inductive Exchange (α : Type) where
  | done (result : α)
  | read (address : UInt16) (next : UInt8 → Exchange α)
  | write (address : UInt16) (value : UInt8) (next : Exchange α)

namespace Exchange

def bind {α γ : Type} : Exchange α → (α → Exchange γ) → Exchange γ
  | done result, f => f result
  | read address next, f => read address fun value => (next value).bind f
  | write address value next, f => write address value (next.bind f)

instance : Monad Exchange where
  pure := done
  bind := bind

theorem bind_done {α : Type} (e : Exchange α) : e.bind done = e := by
  induction e with
  | done => rfl
  | read a k ih => simp only [bind]; congr; funext v; exact ih v
  | write a v k ih => simp only [bind, ih]

theorem bind_assoc {α γ δ : Type} (e : Exchange α) (f : α → Exchange γ) (g : γ → Exchange δ) :
    (e.bind f).bind g = e.bind fun a => (f a).bind g := by
  induction e with
  | done => rfl
  | read a k ih => simp only [bind]; congr; funext v; exact ih v
  | write a v k ih => simp only [bind, ih]

instance : LawfulMonad Exchange :=
  LawfulMonad.mk' Exchange bind_done (fun _ _ => rfl) bind_assoc

/-- One byte. -/
def byte (address : UInt16) : Exchange UInt8 :=
  read address done

/-- A word from two successive addresses, low byte first; the second address wraps at the top of memory. -/
def word (address : UInt16) : Exchange UInt16 :=
  read address fun low => read (address + 1) fun high => done (high.toUInt16 <<< 8 ||| low.toUInt16)

/-- A word whose high byte never leaves the page of `address`, as pointers are read. -/
def pointer (address : UInt16) : Exchange UInt16 :=
  read address fun low =>
    read (address &&& 0xFF00 ||| (address + 1) &&& 0x00FF) fun high => done (high.toUInt16 <<< 8 ||| low.toUInt16)

/-- A stored byte. -/
def store (address : UInt16) (value : UInt8) : Exchange Unit :=
  write address value (done ())

/-- Carries an exchange out on a bus. -/
@[specialize]
def perform {α β : Type} [Bus β] : Exchange α → β → α × β
  | done result, bus => (result, bus)
  | read address next, bus =>
    let (value, bus) := Bus.read bus address
    (next value).perform bus
  | write address value next, bus => next.perform (Bus.write bus address value)

/-- **What follows an exchange goes on with its result, on the bus it leaves behind.** -/
theorem perform_bind {α γ β : Type} [Bus β] (e : Exchange α) (f : α → Exchange γ) (bus : β) :
    (e.bind f).perform bus = (f (e.perform bus).1).perform (e.perform bus).2 := by
  induction e generalizing bus with
  | done => rfl
  | read a k ih => exact ih _ _
  | write a v k ih => exact ih _

end Exchange
end NesConsole
