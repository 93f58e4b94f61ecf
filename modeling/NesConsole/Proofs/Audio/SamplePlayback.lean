import NesConsole.Proofs.Audio.Isolation
import NesConsole.Proofs.Countdown
/-!
# How long a sample plays

Enabling the sample channel primes a counter that has run out, and every scanline takes one off it.  The line that finds
it at zero starts a looping sample over; another sample ends there, with an interrupt if it asks for one.  So a round takes
one line more than the sample has bytes (`Dmc.enabled_hblanked`).
-/
namespace NesConsole

/-- An event that can set a silenced sample channel going again. -/
def ChannelEvent.rearms : ChannelEvent → Bool
  | write reg _ => reg.val = 3
  | enable on => on
  | hblank _ | reset => false

namespace Dmc

/-- The `n`-th scanline from now: what it reports, and the channel after it.  Before the first one nothing is reported. -/
def hblanked (c : Dmc) : Nat → Bool × Dmc
  | 0 => (false, c)
  | n + 1 => (c.hblanked n).2.hblank

/-! ## One scanline -/

theorem hblank_stopped {c : Dmc} (h : c.stopped = true) : c.hblank = (false, c) := if_pos h

theorem hblank_counts {c : Dmc} (hplaying : c.stopped = false) (hlength : c.dmaLength ≠ 0) :
    c.hblank = (false, { c with dmaLength := c.dmaLength - 1 }) := by
  simp [hblank, hplaying, hlength]

theorem hblank_loops {c : Dmc} (hplaying : c.stopped = false) (hlength : c.dmaLength = 0) (hloop : c.loopBit = true) :
    c.hblank = (false, { c with dmaLength := c.sampleLength }) := by
  simp [hblank, hplaying, hlength, hloop]

theorem hblank_ends {c : Dmc} (hplaying : c.stopped = false) (hlength : c.dmaLength = 0) (hloop : c.loopBit = false) :
    c.hblank = (c.irqBit, { c with stopped := true }) := by
  simp [hblank, hplaying, hlength, hloop]

/-- The channel has played for `n` scanlines since it was primed as `start`.  Priming it was the first step of a round. -/
structure Plays (c start : Dmc) (n : Nat) : Prop where
  stopped : c.stopped = false
  regs : c.regs = start.regs
  sampleLength : c.sampleLength = start.sampleLength
  countdown : Countdown start.sampleLength.toNat c.dmaLength.toNat (n + 1)

namespace Plays

variable {c start : Dmc} {n : Nat}

theorem primed (h : c.dmaLength = 0) : (c.setEnabled true).Plays c 0 := by
  have hprimed : (c.setEnabled true).dmaLength = c.sampleLength := if_pos h
  have hzero : Countdown c.sampleLength.toNat 0 0 := ⟨Nat.zero_le _, Nat.dvd_zero _⟩
  exact ⟨rfl, rfl, rfl, hprimed.symm ▸ hzero.restart rfl⟩

/-- **A scanline takes the counter one on**, and from zero to the start of the next round if the sample loops. -/
theorem hblank (h : c.Plays start n) (hgoes : start.loopBit = true ∨ c.dmaLength ≠ 0) :
    c.hblank.1 = false ∧ c.hblank.2.Plays start (n + 1) := by
  by_cases hlength : c.dmaLength = 0
  · have hloop : c.loopBit = true := by
      rw [loopBit, h.regs]
      exact hgoes.resolve_right (not_not_intro hlength)
    have hover : Countdown start.sampleLength.toNat c.sampleLength.toNat (n + 1 + 1) :=
      h.sampleLength.symm ▸ h.countdown.restart (congrArg UInt16.toNat hlength)
    rw [hblank_loops h.stopped hlength hloop]
    exact ⟨rfl, h.stopped, h.regs, h.sampleLength, hover⟩
  · have hpos : 1 ≤ c.dmaLength.toNat := Nat.pos_of_ne_zero fun h0 => hlength (UInt16.toNat_inj.1 h0)
    have hpred : (c.dmaLength - 1).toNat = c.dmaLength.toNat - 1 :=
      UInt16.toNat_sub_of_le _ _ (UInt16.le_iff_toNat_le.2 hpos)
    have hdown : Countdown start.sampleLength.toNat (c.dmaLength - 1).toNat (n + 1 + 1) :=
      hpred.symm ▸ h.countdown.down hpos
    rw [hblank_counts h.stopped hlength]
    exact ⟨rfl, h.stopped, h.regs, h.sampleLength, hdown⟩

theorem length_eq (h : c.Plays start n) :
    (c.dmaLength.toNat : Int) = ((start.sampleLength.toNat : Int) - n) % ((start.sampleLength.toNat : Int) + 1) := by
  -- the step that primed the counter is one of a round
  have hround : (start.sampleLength.toNat : Int) - n =
      -((n + 1 : Nat) : Int) + ((start.sampleLength.toNat + 1 : Nat) : Int) := by omega
  rw [h.countdown.left_eq, hround, ← Int.natCast_add_one, Int.add_emod_right]

/-- In the first round the counter is the lines that are left of it. -/
theorem first_round (h : c.Plays start n) (hn : n ≤ start.sampleLength.toNat) :
    c.dmaLength.toNat = start.sampleLength.toNat - n := by
  have hlength := h.length_eq
  rw [Int.emod_eq_of_lt (by omega) (by omega)] at hlength
  omega

/-- A channel plays through its first round, and if the sample loops for ever. -/
theorem hblanked (h : c.Plays start 0) (n : Nat) (hgoes : start.loopBit = true ∨ n ≤ start.sampleLength.toNat) :
    (c.hblanked n).1 = false ∧ (c.hblanked n).2.Plays start n := by
  induction n with
  | zero => exact ⟨rfl, h⟩
  | succ n ih =>
    have hplays := (ih (hgoes.imp_right Nat.le_of_succ_le)).2
    refine hplays.hblank (hgoes.imp_right fun hn hzero => ?_)
    have hlength := hplays.first_round (Nat.le_of_succ_le hn)
    rw [hzero, UInt16.toNat_zero] at hlength
    omega

end Plays

/-! ## Ends -/

theorem hblanked_of_stopped {c : Dmc} {n : Nat} (h : (c.hblanked n).2.stopped = true) (k : Nat) :
    c.hblanked (n + (k + 1)) = (false, (c.hblanked n).2) := by
  induction k with
  | zero => exact hblank_stopped h
  | succ k ih =>
    show (c.hblanked (n + (k + 1))).2.hblank = _
    rw [ih]
    exact hblank_stopped h

/-- The line after the first round ends a sample that does not loop. -/
theorem Plays.ends {c start : Dmc} (h : c.Plays start 0) (hloop : start.loopBit = false) :
    c.hblanked (start.sampleLength.toNat + 1) =
      (start.irqBit, { (c.hblanked start.sampleLength.toNat).2 with stopped := true }) := by
  obtain ⟨-, hplays⟩ := h.hblanked _ (.inr (Nat.le_refl _))
  have hlength := hplays.first_round (Nat.le_refl _)
  rw [Nat.sub_self] at hlength
  have honce : (c.hblanked start.sampleLength.toNat).2.loopBit = false := by rwa [loopBit, hplays.regs]
  have hirq : (c.hblanked start.sampleLength.toNat).2.irqBit = start.irqBit := by rw [irqBit, hplays.regs, irqBit]
  rw [← hirq]
  exact hblank_ends hplays.stopped (UInt16.toNat_inj.1 hlength) honce

/-- Nothing but a write to the fourth register or to the status sets a silenced channel going again. -/
theorem silenced_respond {c : Dmc} (hstopped : c.stopped = true) (hlength : c.dmaLength = 0) {event : ChannelEvent}
    (h : event.rearms = false) :
    ∃ d : Dmc, (Channel.dmc c).respond event = .dmc d ∧ d.stopped = true ∧ d.dmaLength = 0 := by
  cases event with
  | write reg value =>
    have hreg : reg ≠ 3 := fun h3 => of_decide_eq_false h (congrArg Fin.val h3)
    refine ⟨c.write reg value, rfl, ?_⟩
    simp only [write, hreg, if_false]
    exact ⟨hstopped, hlength⟩
  | enable on =>
    obtain rfl : on = false := h
    exact ⟨_, rfl, rfl, rfl⟩
  | hblank scanline =>
    refine ⟨c, ?_, hstopped, hlength⟩
    have hkept : (Channel.dmc c).countDown = .dmc c := by rw [Channel.countDown, hblank_stopped hstopped]
    rw [Channel.respond, hkept]
    exact ite_self _
  | reset => exact ⟨{}, rfl, rfl, rfl⟩

theorem silenced_responds {c : Dmc} (hstopped : c.stopped = true) (hlength : c.dmaLength = 0)
    {events : List ChannelEvent} (h : ∀ event ∈ events, event.rearms = false) :
    ∃ d : Dmc, events.foldl Channel.respond (.dmc c) = .dmc d ∧ d.stopped = true ∧ d.dmaLength = 0 := by
  induction events generalizing c with
  | nil => exact ⟨c, rfl, hstopped, hlength⟩
  | cons event events ih =>
    obtain ⟨d, hd, hstopped, hlength⟩ := silenced_respond hstopped hlength (h event List.mem_cons_self)
    rw [List.foldl_cons, hd]
    exact ih hstopped hlength fun later hlater => h later (List.mem_cons_of_mem _ hlater)

/-- **The countdown of a sample in closed form.**  Let a channel be enabled whose counter has run out.  A sample that does
not loop plays for its length in lines; the next line ends it, reports that exactly if bit 7 of the first register is set,
and is the last to do anything.  One that loops, by bit 6, goes through its rounds for ever and reports nothing.  Enabling
the channel while its counter runs leaves the counter as it is.  Disabling it at any time empties the counter, and until
the fourth register is written or the channel enabled no line reports or changes anything. -/
theorem enabled_hblanked (c : Dmc) (hempty : c.dmaLength = 0) :
    let call := (c.setEnabled true).hblanked
    let length := c.sampleLength.toNat
    (c.regs.control.toBitVec.getLsbD 6 = false →
      (∀ n ≤ length, (call n).1 = false ∧ (call n).2.stopped = false ∧ (call n).2.dmaLength.toNat = length - n) ∧
      call (length + 1) = (c.regs.control.toBitVec.getLsbD 7, { (call length).2 with stopped := true }) ∧
      ∀ n > length + 1, call n = (false, (call (length + 1)).2)) ∧
    (c.regs.control.toBitVec.getLsbD 6 = true →
      ∀ n : Nat, (call n).1 = false ∧ (call n).2.stopped = false ∧
        ((call n).2.dmaLength.toNat : Int) = ((length : Int) - n) % ((length : Int) + 1)) ∧
    (∀ d : Dmc, d.dmaLength ≠ 0 → d.setEnabled true = { d with stopped := false }) ∧
    (∀ d : Dmc, (d.setEnabled false).dmaLength = 0 ∧
      ∀ events : List ChannelEvent, (∀ event ∈ events, event.rearms = false) →
        ∃ rest : Dmc, events.foldl Channel.respond (.dmc (d.setEnabled false)) = .dmc rest ∧ rest.dmaLength = 0 ∧
          rest.hblank = (false, rest)) := by
  intro call length
  have hloopBit : c.loopBit = c.regs.control.toBitVec.getLsbD 6 := flag_ne 0x40 6 (by decide) rfl _
  have hirqBit : c.irqBit = c.regs.control.toBitVec.getLsbD 7 := flag_ne 0x80 7 (by decide) rfl _
  have hplays : (c.setEnabled true).Plays c 0 := .primed hempty
  rw [← hloopBit, ← hirqBit]
  refine ⟨fun honce => ⟨fun n hn => ?_, hplays.ends honce, fun n hn => ?_⟩, fun hloop n => ?_, fun d hd => ?_,
    fun d => ⟨rfl, fun events hevents => ?_⟩⟩
  · obtain ⟨hquiet, hn'⟩ := hplays.hblanked n (.inr hn)
    exact ⟨hquiet, hn'.stopped, hn'.first_round hn⟩
  · have hstopped : (call (length + 1)).2.stopped = true :=
      congrArg (fun report => report.2.stopped) (hplays.ends honce)
    obtain ⟨k, rfl⟩ := Nat.exists_eq_add_of_lt hn
    exact hblanked_of_stopped hstopped k
  · obtain ⟨hquiet, hn⟩ := hplays.hblanked n (.inl hloop)
    exact ⟨hquiet, hn.stopped, hn.length_eq⟩
  · simp [setEnabled, hd]
  · obtain ⟨rest, hrest, hstopped, hlength⟩ := silenced_responds (c := d.setEnabled false) rfl rfl hevents
    exact ⟨rest, hrest, hlength, hblank_stopped hstopped⟩

/-- A sample of eight bytes reports its end at the ninth line and never after, and starts over there if it loops. -/
theorem enabled_hblanked_eight :
    let once : Dmc := (({} : Dmc).write 0 0x80).write 3 0
    let loops : Dmc := (({} : Dmc).write 0 0xC0).write 3 0
    once.dmaLength = 0 ∧ once.sampleLength.toNat = 8 ∧ loops.dmaLength = 0 ∧ loops.sampleLength.toNat = 8 ∧
      ((once.setEnabled true).hblanked 8).2.dmaLength.toNat = 0 ∧ ((once.setEnabled true).hblanked 9).1 = true ∧
      ((once.setEnabled true).hblanked 10).1 = false ∧
      ((loops.setEnabled true).hblanked 9).1 = false ∧ ((loops.setEnabled true).hblanked 9).2.dmaLength.toNat = 8 := by
  intro once loops
  obtain ⟨hplays, hends, hover⟩ := (enabled_hblanked once rfl).1 (by decide)
  obtain ⟨hquiet, -, hreloaded⟩ := (enabled_hblanked loops rfl).2.1 (by decide) 9
  have hasks : ((once.setEnabled true).hblanked 9).1 = true := (congrArg Prod.fst hends).trans (by decide)
  have hfull : (((loops.setEnabled true).hblanked 9).2.dmaLength.toNat : Int) = 8 := hreloaded.trans (by decide)
  exact ⟨rfl, by decide, rfl, by decide, (hplays 8 (by decide)).2.2, hasks, congrArg Prod.fst (hover 10 (by decide)),
    hquiet, Int.ofNat.inj hfull⟩

end Dmc
end NesConsole
