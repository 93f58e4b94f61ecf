import NesConsole.Proofs.Cartridge.BankRegisters
import NesConsole.Proofs.Countdown
/-!
# The scanline counter of MMC3

A reload starts the counter anew.  From then on it goes through periods of one line more than the latch says, of which
each ends with the counter at zero, and only the lines of the picture and the one before it count
(`Mmc3.reload_hblank`).  Where in a period the counter is follows from one fact that every line keeps: the lines counted
and the lines still to come make up whole periods (`Mmc3.Counts`).
-/
namespace NesConsole
namespace Mmc3

/-- The line counts: it is one of the picture, or the one before it. -/
def Counted (line : UInt16) : Prop := line.toNat < 240 ∨ line.toNat = 261

instance (line : UInt16) : Decidable (Counted line) := inferInstanceAs (Decidable (_ ∨ _))

/-- How many of these lines count. -/
def counted (lines : List UInt16) : Nat := lines.countP fun line => Counted line

/-- The board after a row of lines. -/
def scanned (m : Mmc3) (lines : List UInt16) : Mmc3 := lines.foldl (fun m line => (m.hblank line).2) m

/-! ## One line -/

theorem clockedBy_iff (line : UInt16) : clockedBy line = true ↔ Counted line := by
  simp only [clockedBy, Bool.or_eq_true, decide_eq_true_eq, beq_iff_eq, UInt16.lt_iff_toNat_lt, ← UInt16.toNat_inj]
  rfl

theorem hblank_uncounted (m : Mmc3) {line : UInt16} (h : ¬Counted line) : m.hblank line = (false, m) :=
  if_neg (mt (clockedBy_iff line).1 h)

/-- The board has counted `count` lines since a reload found it as `start`.  With the lines still to come they make up
whole periods. -/
structure Counts (m start : Mmc3) (count : Nat) : Prop where
  latch : m.latch = start.latch
  enabled : m.enabled = start.enabled
  counter_le : m.counter.toNat ≤ start.latch.toNat
  periods : start.latch.toNat + 1 ∣ m.counter.toNat + count
  /-- A reload that is still to be made finds the counter at zero, where it starts over anyhow. -/
  reload : m.reload = true → m.counter = 0

namespace Counts

variable {start m : Mmc3} {count : Nat}

theorem reloaded (m : Mmc3) {address : UInt16} (h : IsPort 0xC000 1 address) (value : UInt8) (t : Banks) :
    (m.write address value t).1.Counts m 0 := by
  have hport : address &&& 0xE001 = 0xC001 := (isPort_iff rfl (by decide) address).2 h
  have hwrite : m.write address value t = ({ m with counter := 0, reload := true }, t) := by
    simp only [write, hport]
  rw [hwrite]
  exact ⟨rfl, rfl, Nat.zero_le _, Nat.dvd_zero _, fun _ => rfl⟩

theorem countdown (h : m.Counts start count) : Countdown start.latch.toNat m.counter.toNat count :=
  ⟨h.counter_le, h.periods⟩

/-- **A line that counts takes the counter one on**, and from zero to the start of the next period. -/
theorem hblank (h : m.Counts start count) {line : UInt16} (hline : Counted line) :
    (m.hblank line).2.Counts start (count + 1) ∧
      (m.hblank line).1 = ((m.hblank line).2.counter == 0 && start.enabled) := by
  have hclocked : clockedBy line = true := (clockedBy_iff line).2 hline
  have hzero : (m.counter = 0 ∨ m.reload = true) ↔ m.counter = 0 := or_iff_left_of_imp h.reload
  unfold Mmc3.hblank
  simp only [hclocked, if_true, hzero]
  refine ⟨?_, by split <;> rw [← h.enabled]⟩
  split
  · next hcounter =>
    obtain ⟨hle, hperiods⟩ : Countdown start.latch.toNat m.latch.toNat (count + 1) :=
      h.latch.symm ▸ h.countdown.restart (congrArg UInt8.toNat hcounter)
    exact ⟨h.latch, h.enabled, hle, hperiods, fun hreload => Bool.noConfusion hreload⟩
  · next hcounter =>
    have hpos : 1 ≤ m.counter.toNat := Nat.pos_of_ne_zero fun h0 => hcounter (UInt8.toNat_inj.1 h0)
    have hpred : (m.counter - 1).toNat = m.counter.toNat - 1 :=
      UInt8.toNat_sub_of_le m.counter 1 (UInt8.le_iff_toNat_le.2 hpos)
    obtain ⟨hle, hperiods⟩ : Countdown start.latch.toNat (m.counter - 1).toNat (count + 1) :=
      hpred.symm ▸ h.countdown.down hpos
    exact ⟨h.latch, h.enabled, hle, hperiods, fun hreload => absurd (h.reload hreload) hcounter⟩

theorem scanned (h : m.Counts start count) (lines : List UInt16) :
    (m.scanned lines).Counts start (count + counted lines) := by
  induction lines generalizing m count with
  | nil => exact h
  | cons line lines ih =>
    by_cases hline : Counted line
    · have hrest := ih (h.hblank hline).1
      rwa [Nat.add_assoc, Nat.add_comm 1,
        show counted lines + 1 = counted (line :: lines) by simp [counted, hline]] at hrest
    · have hrest := ih h
      rwa [show counted lines = counted (line :: lines) by simp [counted, hline],
        show m.scanned lines = m.scanned (line :: lines) by simp [Mmc3.scanned, hblank_uncounted m hline]] at hrest

theorem counter_eq (h : m.Counts start count) :
    (m.counter.toNat : Int) = -(count : Int) % ((start.latch.toNat + 1 : Nat) : Int) :=
  h.countdown.left_eq

theorem counter_eq_zero_iff (h : m.Counts start count) : m.counter = 0 ↔ start.latch.toNat + 1 ∣ count := by
  rw [← UInt8.toNat_inj, UInt8.toNat_zero]
  exact h.countdown.left_eq_zero_iff

end Counts

/-- **The counter in closed form.**  Let a reload be written, and a row of lines follow.  The `k`-th line that counts
leaves the counter at `-k` modulo a period, and asks for an interrupt exactly if interrupts are enabled and `k` lines are
a whole number of periods.  A line that does not count does nothing. -/
theorem reload_hblank (m : Mmc3) {address : UInt16} (hreload : IsPort 0xC000 1 address) (value : UInt8) (t : Banks)
    (earlier : List UInt16) (line : UInt16) :
    let before := (m.write address value t).1.scanned earlier
    let period := m.latch.toNat + 1
    let k := counted (earlier ++ [line])
    (Counted line →
      ((before.hblank line).2.counter.toNat : Int) = -(k : Int) % (period : Int) ∧
      ((before.hblank line).1 = true ↔ m.enabled = true ∧ period ∣ k)) ∧
    (¬Counted line → before.hblank line = (false, before)) := by
  intro before period k
  have hbefore : before.Counts m (counted earlier) := by
    simpa only [Nat.zero_add] using (Counts.reloaded m hreload value t).scanned earlier
  refine ⟨fun hline => ?_, before.hblank_uncounted⟩
  obtain ⟨hafter, hfired⟩ := hbefore.hblank hline
  have hk : counted earlier + 1 = k := by simp [k, counted, List.countP_append, hline]
  rw [hk] at hafter
  refine ⟨hafter.counter_eq, ?_⟩
  rw [hfired, Bool.and_eq_true, beq_iff_eq, hafter.counter_eq_zero_iff]
  exact and_comm

/-- With 1 in the latch every second line of the picture fires, and the lines after the picture do not count. -/
theorem reload_hblank_second :
    let m : Mmc3 := { latch := 1, enabled := true }
    IsPort 0xC000 1 0xDFFF ∧ ∀ t : Banks,
      (((m.write 0xDFFF 0 t).1.scanned [0, 241, 261, 1, 250]).hblank 2).1 = true := by
  intro m
  have hport : IsPort 0xC000 1 0xDFFF := by decide
  have hline : Counted 2 := by decide
  refine ⟨hport, fun t => ?_⟩
  exact ((reload_hblank m hport 0 t [0, 241, 261, 1, 250] 2).1 hline).2.2 ⟨rfl, by decide⟩

end Mmc3
end NesConsole
