import NesConsole.Bus
/-!
# Breakpoints and watchpoints

Both are sets of addresses; a watchpoint tells reads from writes.  They decide when a processor pauses and nothing else:
an exchange carried out under watch asks the bus for the same accesses and ends in the same result.
-/
namespace NesConsole

/-- A finite set of addresses, listed in increasing order. -/
structure AddressSet where
  toList : List UInt16
  sorted : toList.Pairwise (· < ·)

namespace AddressSet

def empty : AddressSet := ⟨[], .nil⟩

instance : Inhabited AddressSet := ⟨empty⟩

def contains (set : AddressSet) (address : UInt16) : Bool :=
  set.toList.contains address

def erase (set : AddressSet) (address : UInt16) : AddressSet where
  toList := set.toList.filter (· != address)
  sorted := set.sorted.filter _

/-- The members below `address`, `address` itself, the members above. -/
def insert (set : AddressSet) (address : UInt16) : AddressSet where
  toList := set.toList.filter (· < address) ++ address :: set.toList.filter (address < ·)
  sorted := by
    simp only [List.pairwise_append, List.pairwise_cons, List.mem_filter, List.mem_cons, decide_eq_true_eq]
    refine ⟨set.sorted.filter _, ⟨fun b h => h.2, set.sorted.filter _⟩, fun a ha b hb => ?_⟩
    rcases hb with rfl | hb
    · exact ha.2
    · exact UInt16.lt_trans ha.2 hb.2

def set (addresses : AddressSet) (address : UInt16) (enabled : Bool) : AddressSet :=
  if enabled then addresses.insert address else addresses.erase address

theorem mem_insert (addresses : AddressSet) (address other : UInt16) :
    other ∈ (addresses.insert address).toList ↔ other = address ∨ other ∈ addresses.toList := by
  simp only [insert, List.mem_append, List.mem_cons, List.mem_filter, decide_eq_true_eq]
  constructor
  · rintro (⟨hmem, -⟩ | rfl | ⟨hmem, -⟩)
    · exact .inr hmem
    · exact .inl rfl
    · exact .inr hmem
  · rintro (rfl | hmem)
    · exact .inr (.inl rfl)
    · obtain hlt | heq | hgt : other < address ∨ other = address ∨ address < other := by grind
      · exact .inl ⟨hmem, hlt⟩
      · exact .inr (.inl heq)
      · exact .inr (.inr ⟨hmem, hgt⟩)

/-- **What was set last counts**, for each address by itself. -/
@[simp] theorem contains_set (addresses : AddressSet) (address other : UInt16) (enabled : Bool) :
    (addresses.set address enabled).contains other = if other = address then enabled else addresses.contains other := by
  have hcontains (set : AddressSet) : set.contains other = decide (other ∈ set.toList) := List.contains_eq_mem other _
  rw [hcontains, hcontains]
  cases enabled with
  | true =>
    simp only [set, if_true, mem_insert]
    by_cases h : other = address <;> simp [h]
  | false =>
    by_cases h : other = address <;> simp [set, erase, h]

end AddressSet

/-- Symbolic events a breakpoint can be attached to. -/
inductive DebugEvent where
  | nmi
  deriving DecidableEq

/-- Event names are read without regard to the case of ASCII letters. -/
def DebugEvent.ofName? (name : String) : Option DebugEvent :=
  if name.toLower = "nmi" then some .nmi else none

structure Breakpoints where
  addresses : AddressSet := .empty
  nmi : Bool := false

namespace Breakpoints

def set (b : Breakpoints) (address : UInt16) (enabled : Bool) : Breakpoints :=
  { b with addresses := b.addresses.set address enabled }

def setEvent (b : Breakpoints) (event : DebugEvent) (enabled : Bool) : Breakpoints :=
  match event with
  | .nmi => { b with nmi := enabled }

def isEnabled (b : Breakpoints) (address : UInt16) : Bool :=
  b.addresses.contains address

@[simp] theorem isEnabled_set (b : Breakpoints) (address other : UInt16) (enabled : Bool) :
    (b.set address enabled).isEnabled other = if other = address then enabled else b.isEnabled other :=
  b.addresses.contains_set address other enabled

def isEventEnabled (b : Breakpoints) (event : DebugEvent) : Bool :=
  match event with
  | .nmi => b.nmi

end Breakpoints

structure Watchpoints where
  reads : AddressSet := .empty
  writes : AddressSet := .empty

namespace Watchpoints

def setRead (w : Watchpoints) (address : UInt16) (enabled : Bool) : Watchpoints :=
  { w with reads := w.reads.set address enabled }

def setWrite (w : Watchpoints) (address : UInt16) (enabled : Bool) : Watchpoints :=
  { w with writes := w.writes.set address enabled }

def watchesRead (w : Watchpoints) (address : UInt16) : Bool :=
  w.reads.contains address

def watchesWrite (w : Watchpoints) (address : UInt16) : Bool :=
  w.writes.contains address

@[simp] theorem watchesRead_setRead (w : Watchpoints) (address other : UInt16) (enabled : Bool) :
    (w.setRead address enabled).watchesRead other = if other = address then enabled else w.watchesRead other :=
  w.reads.contains_set address other enabled

@[simp] theorem watchesWrite_setWrite (w : Watchpoints) (address other : UInt16) (enabled : Bool) :
    (w.setWrite address enabled).watchesWrite other = if other = address then enabled else w.watchesWrite other :=
  w.writes.contains_set address other enabled

end Watchpoints

/-- Carries an exchange out on a bus and raises `paused` when an access hits a watchpoint. -/
@[specialize]
def Exchange.watched {α β : Type} [Bus β] (watch : Watchpoints) : Exchange α → Bool → β → α × Bool × β
  | done result, paused, bus => (result, paused, bus)
  | read address next, paused, bus =>
    let (value, bus) := Bus.read bus address
    (next value).watched watch (paused || watch.watchesRead address) bus
  | write address value next, paused, bus =>
    next.watched watch (paused || watch.watchesWrite address) (Bus.write bus address value)

/-- **A watched exchange ends in the result it has without the watch.** -/
theorem Exchange.watched_fst {α β : Type} [Bus β] (watch : Watchpoints) (e : Exchange α) (paused : Bool) (bus : β) :
    (e.watched watch paused bus).1 = (e.perform bus).1 := by
  induction e generalizing paused bus with
  | done => rfl
  | read a k ih => exact ih _ _ _
  | write a v k ih => exact ih _ _

/-- **A watched exchange leaves the bus as it does without the watch.** -/
theorem Exchange.watched_bus {α β : Type} [Bus β] (watch : Watchpoints) (e : Exchange α) (paused : Bool) (bus : β) :
    (e.watched watch paused bus).2.2 = (e.perform bus).2 := by
  induction e generalizing paused bus with
  | done => rfl
  | read a k ih => exact ih _ _ _
  | write a v k ih => exact ih _ _

end NesConsole
