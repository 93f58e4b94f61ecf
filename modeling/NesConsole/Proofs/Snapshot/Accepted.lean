import NesConsole.Snapshot.Basic
/-!
# Accepted snapshots

What a load that succeeds has checked, part by part, and what it put in place.  A part that took a state over saves that
state again (`Apu.save_load`, `Cartridge.save_load`, `Console.save_load`).  Only the two flag bytes of an MMC3 board
are rewritten: they are saved as 0 or 1 (`Snapshot.plain`).
-/
namespace NesConsole

theorem bind_eq_ok {ε α γ : Type} {x : Except ε α} {f : α → Except ε γ} {c : γ} :
    (x >>= f) = .ok c ↔ ∃ a, x = .ok a ∧ f a = .ok c := by
  cases x <;> simp [bind, Except.bind]

theorem map_eq_ok {ε α γ : Type} {x : Except ε α} {f : α → γ} {c : γ} :
    f <$> x = .ok c ↔ ∃ a, x = .ok a ∧ f a = c := by
  cases x <;> simp [Functor.map, Except.map]

/-! ## Channels -/

namespace ChannelState

theorem check_pulse {regs : ChannelRegisters} {stopped restarting : Bool} {length decay : UInt8}
    {divider counter : Int16} :
    (pulse regs stopped length divider decay restarting counter).check = .ok () ↔
      Envelope.DividerRange divider ∧ decay ≤ 15 ∧ Sweep.CounterRange counter := by
  rw [check, ← UInt8.not_lt]
  by_cases hd : Envelope.DividerRange divider
  · by_cases h15 : 15 < decay
    · simp [hd, h15]
    · by_cases hc : Sweep.CounterRange counter <;> simp [hd, h15, hc]
  · simp [hd]

theorem check_dmc {regs : ChannelRegisters} {stopped : Bool} {sampleLength dmaLength : UInt16} :
    (dmc regs stopped sampleLength dmaLength).check = .ok () ↔
      isSampleLength sampleLength = true ∧ dmaLength ≤ maxSampleLength := by
  rw [check, ← UInt16.not_lt]
  by_cases hs : isSampleLength sampleLength
  · by_cases hd : maxSampleLength < dmaLength <;> simp [hs, hd]
  · simp [hs]

end ChannelState

namespace Channels

/-- **An accepted pulse state, unpacked.** -/
theorem pulse?_ok {channel : Nat} {state : ChannelState} {p : Pulse} (h : pulse? channel state = .ok p) :
    state.check = .ok () ∧ state = p.save ∧ Channel.ofState state = .pulse p := by
  cases state with
  | pulse regs stopped length divider decay restarting counter =>
    obtain ⟨_, hcheck, hp⟩ := bind_eq_ok.1 h
    cases hp
    obtain ⟨-, hdecay, -⟩ := ChannelState.check_pulse.1 hcheck
    have hmin : min decay 15 = decay := if_pos hdecay
    exact ⟨hcheck, by simp only [Pulse.save, Pulse.restore, Envelope.restore, Sweep.restore, hmin], rfl⟩
  | triangle | noise | dmc => cases h

theorem triangle?_ok {channel : Nat} {state : ChannelState} {t : Triangle} (h : triangle? channel state = .ok t) :
    state.check = .ok () ∧ state = t.save ∧ Channel.ofState state = .triangle t := by
  cases state with
  | triangle => cases h; exact ⟨rfl, rfl, rfl⟩
  | pulse | noise | dmc => cases h

theorem noise?_ok {channel : Nat} {state : ChannelState} {n : Noise} (h : noise? channel state = .ok n) :
    state.check = .ok () ∧ state = n.save ∧ Channel.ofState state = .noise n := by
  cases state with
  | noise => cases h; exact ⟨rfl, rfl, rfl⟩
  | pulse | triangle | dmc => cases h

theorem dmc?_ok {channel : Nat} {state : ChannelState} {d : Dmc} (h : dmc? channel state = .ok d) :
    state.check = .ok () ∧ state = d.save ∧ Channel.ofState state = .dmc d := by
  cases state with
  | dmc regs stopped sampleLength dmaLength =>
    obtain ⟨_, hcheck, hd⟩ := bind_eq_ok.1 h
    cases hd
    exact ⟨hcheck, rfl, rfl⟩
  | pulse | triangle | noise => cases h

/-- **Accepted channel states, unpacked**: there are five, and each describes its channel. -/
theorem ofStates_ok {states : List ChannelState} {c : Channels} (h : ofStates states = .ok c) :
    ∃ s0 s1 s2 s3 s4, states = [s0, s1, s2, s3, s4] ∧ pulse? 0 s0 = .ok c.pulse1 ∧ pulse? 1 s1 = .ok c.pulse2 ∧
      triangle? 2 s2 = .ok c.triangle ∧ noise? 3 s3 = .ok c.noise ∧ dmc? 4 s4 = .ok c.dmc := by
  unfold ofStates at h
  split at h
  · obtain ⟨p1, h1, h⟩ := bind_eq_ok.1 h
    obtain ⟨p2, h2, h⟩ := bind_eq_ok.1 h
    obtain ⟨t, h3, h⟩ := bind_eq_ok.1 h
    obtain ⟨n, h4, h⟩ := bind_eq_ok.1 h
    obtain ⟨d, h5, h⟩ := bind_eq_ok.1 h
    cases h
    exact ⟨_, _, _, _, _, rfl, h1, h2, h3, h4, h5⟩
  · cases h

theorem save_ofStates {states : List ChannelState} {c : Channels} (h : ofStates states = .ok c) :
    c.toList.map Channel.save = states := by
  obtain ⟨s0, s1, s2, s3, s4, rfl, h0, h1, h2, h3, h4⟩ := ofStates_ok h
  rw [(pulse?_ok h0).2.1, (pulse?_ok h1).2.1, (triangle?_ok h2).2.1, (noise?_ok h3).2.1, (dmc?_ok h4).2.1]
  rfl

end Channels

/-! ## The sound unit -/

namespace Apu

/-- **An accepted sound state, unpacked.** -/
theorem load_ok {apu apu' : Apu} {state : ApuState} (h : apu.load state = .ok apu') :
    ∃ (hs : state.regs.size = 32) (channels : Channels), Channels.ofStates state.channels = .ok channels ∧
      apu' = { apu with
        registers := { bytes := ⟨state.regs, hs⟩ }
        channels
        frameInterrupt := state.frameInterrupt
        dmcInterrupt := state.dmcInterrupt } := by
  unfold load at h
  split at h
  · next hs =>
    obtain ⟨channels, hc, h⟩ := bind_eq_ok.1 h
    cases h
    exact ⟨hs, channels, hc, rfl⟩
  · cases h

theorem save_load {apu apu' : Apu} {state : ApuState} (h : apu.load state = .ok apu') : apu'.save = state := by
  obtain ⟨hs, channels, hc, rfl⟩ := load_ok h
  simp only [save, Channels.save_ofStates hc]

end Apu

/-! ## The cartridge -/

/-- A flag's byte as it is saved: 1 if the flag is set. -/
def plainFlag (byte : UInt8) : UInt8 := (byte != 0).toUInt8

/-- The state with the two flag bytes of an MMC3 board, which are its last two, written as 0 or 1. -/
def CartridgeState.plain (state : CartridgeState) : CartridgeState :=
  if state.boardNumber = Mmc3.number then
    { state with boardRegisters := (state.boardRegisters.modify 13 plainFlag).modify 14 plainFlag }
  else
    state

def Snapshot.plain (s : Snapshot) : Snapshot := { s with cartridge := s.cartridge.map CartridgeState.plain }

/-- **An accepted bank table, unpacked.** -/
theorem Banks.load_ok {b b' : Banks} {state : BankState} (h : b.load state = .ok b') :
    (∀ bank ∈ state.prg.toList, bank < b.prgCount) ∧ (∀ bank ∈ state.chr.toList, bank < b.chrCount) ∧
      b' = { b with prg := state.prg, chr := state.chr, mirroring := state.mirroring } := by
  unfold load at h
  split at h
  · cases h
  · cases h
  · next hp hc =>
    cases h
    rw [List.find?_eq_none] at hp hc
    exact ⟨fun bank hb => by simpa using hp bank hb, fun bank hb => by simpa using hc bank hb, rfl⟩

theorem Banks.save_load {b b' : Banks} {state : BankState} (h : b.load state = .ok b') : b'.save = state := by
  obtain ⟨-, -, rfl⟩ := load_ok h
  rfl

theorem Mmc1.load_ok {regs : Array UInt8} {m : Mmc1} (h : load regs = .ok m) : m.save = regs ∧ m.shiftCount < 5 := by
  unfold load at h
  split at h
  · next hl =>
    split at h
    · cases h
    · next hc => cases h; exact ⟨Array.toList_inj.1 hl.symm, UInt8.not_le.1 hc⟩
  · cases h

theorem Mmc3.load_ok {regs : Array UInt8} {m : Mmc3} (h : load regs = .ok m) :
    m.save = (regs.modify 13 plainFlag).modify 14 plainFlag := by
  unfold load at h
  split at h
  · next hl =>
    rw [show regs = _ from Array.toList_inj.1 hl]
    cases h
    rfl
  · cases h

namespace Board

/-- An accepted board state leaves the kind of board as it is. -/
theorem number_load {board board' : Board} {regs : Array UInt8} (h : board.load regs = .ok board') :
    board'.number = board.number := by
  cases board with
  | mmc1 | mmc3 => obtain ⟨_, -, rfl⟩ := map_eq_ok.1 h; rfl
  | nrom | uxRom | cnRom | axRom | gxRom | board87 =>
    simp only [load] at h
    split at h <;> cases h
    rfl

theorem save_load {board board' : Board} {regs : Array UInt8} (h : board.load regs = .ok board') :
    board'.save =
      if board.number = Mmc3.number then (regs.modify 13 plainFlag).modify 14 plainFlag else regs := by
  cases board with
  | mmc1 => obtain ⟨m, hm, rfl⟩ := map_eq_ok.1 h; exact (Mmc1.load_ok hm).1
  | mmc3 => obtain ⟨m, hm, rfl⟩ := map_eq_ok.1 h; exact Mmc3.load_ok hm
  | nrom | uxRom | cnRom | axRom | gxRom | board87 =>
    simp only [load] at h
    split at h
    · next he => cases h; exact (Array.isEmpty_iff.1 he).symm
    · cases h

end Board

namespace Cartridge

theorem loadChrRam_ok {c c' : Cartridge} {saved : Option (Array UInt8)} (h : c.loadChrRam saved = .ok c') :
    ∃ (chr : Array UInt8) (chr_pos : 0 < chr.size), (if c.chrIsRam then some chr else none) = saved ∧
      chr.size = c.chr.size ∧ (c.chrIsRam = false → chr = c.chr) ∧ c' = { c with chr, chr_pos } := by
  unfold loadChrRam at h
  split at h
  · next ram hr =>
    split at h
    · next hs =>
      cases h
      exact ⟨ram, _, by rw [hr]; rfl, hs, fun hf => absurd hr (by rw [hf]; decide), rfl⟩
    · cases h
  · next hr =>
    cases h
    exact ⟨c.chr, _, by rw [hr]; rfl, rfl, fun _ => rfl, rfl⟩
  · cases h

/-- **An accepted cartridge state, unpacked.** -/
theorem load_ok {c c' : Cartridge} {state : CartridgeState} (h : c.load state = .ok c') :
    state.boardNumber = c.number ∧ ∃ (hs : state.prgRam.size = prgRamSize) (chr : Array UInt8)
      (chr_pos : 0 < chr.size) (banks : Banks) (board : Board),
        (if c.chrIsRam then some chr else none) = state.chrRam ∧ chr.size = c.chr.size ∧
        (c.chrIsRam = false → chr = c.chr) ∧ c.banks.load state.banks = .ok banks ∧
        c.board.load state.boardRegisters = .ok board ∧
        c' = { c with prgRam := ⟨state.prgRam, hs⟩, chr, chr_pos, banks, board } := by
  unfold load at h
  split at h
  · cases h
  · next hn =>
    split at h
    · next hs =>
      obtain ⟨ram, hr, h⟩ := bind_eq_ok.1 h
      obtain ⟨chr, chr_pos, hsaved, hsize, hrom, rfl⟩ := loadChrRam_ok hr
      obtain ⟨banks, hb, h⟩ := bind_eq_ok.1 h
      obtain ⟨board, hd, h⟩ := bind_eq_ok.1 h
      cases h
      exact ⟨Classical.not_not.1 hn, hs, chr, chr_pos, banks, board, hsaved, hsize, hrom, hb, hd, rfl⟩
    · cases h

theorem save_load {c c' : Cartridge} {state : CartridgeState} (h : c.load state = .ok c') : c'.save = state.plain := by
  obtain ⟨hn, hs, chr, chr_pos, banks, board, hsaved, -, -, hb, hd, rfl⟩ := load_ok h
  have hnumber : board.number = state.boardNumber := by rw [Board.number_load hd, hn]; rfl
  have hregs := Board.save_load hd
  rw [← Board.number_load hd, hnumber] at hregs
  simp only [save, number, Banks.save_load hb, hsaved, hnumber, hregs, CartridgeState.plain]
  split <;> rfl

end Cartridge

/-! ## The console -/

namespace Console

variable {π : Type}

theorem loadCartridge_ok {inserted inserted' : Option Cartridge} {saved : Option CartridgeState}
    (h : loadCartridge inserted saved = .ok inserted') :
    (inserted = none ∧ saved = none ∧ inserted' = none) ∨
      ∃ c state c', inserted = some c ∧ saved = some state ∧ inserted' = some c' ∧ c.load state = .ok c' := by
  unfold loadCartridge at h
  split at h
  · next c state =>
    obtain ⟨c', hc, rfl⟩ := map_eq_ok.1 h
    exact .inr ⟨c, state, c', rfl, rfl, rfl, hc⟩
  · cases h; exact .inl ⟨rfl, rfl, rfl⟩
  · cases h

/-- **Accepted contents, unpacked**: the registers, work RAM, the cartridge, the sound unit and the interrupt line come
from the snapshot, and everything else stays. -/
theorem loadContents_ok {console console' : Console π} {s : Snapshot} (h : console.loadContents s = .ok console') :
    s.cpu.check = .ok () ∧ ∃ (hs : s.ram.size = workRamSize) (cartridge : Option Cartridge) (apu : Apu),
      loadCartridge console.bus.cartridge s.cartridge = .ok cartridge ∧ console.bus.apu.load s.apu = .ok apu ∧
      console' = { console with
        cpu := { console.cpu with registers := s.cpu, operation := none }
        bus := { console.bus with ram := ⟨s.ram, hs⟩, apu, cartridge }
        irq := s.irqPending } := by
  unfold loadContents at h
  obtain ⟨cpu, hcpu, h⟩ := bind_eq_ok.1 h
  obtain ⟨_, hcheck, hcpu⟩ := bind_eq_ok.1 hcpu
  cases hcpu
  split at h
  · next hs =>
    obtain ⟨cartridge, hc, h⟩ := bind_eq_ok.1 h
    obtain ⟨apu, ha, h⟩ := bind_eq_ok.1 h
    cases h
    exact ⟨hcheck, hs, cartridge, apu, hc, ha, rfl⟩
  · cases h

theorem load_ok {console console' : Console π} {s : Snapshot} (h : console.load s = .ok console') :
    s.version = snapshotVersion ∧ console.loadContents s = .ok console' := by
  unfold load at h
  split at h
  · next hv =>
    refine ⟨hv, ?_⟩
    cases hc : console.loadContents s with
    | ok => rw [hc] at h; cases h; rfl
    | error => rw [hc] at h; cases h
  · cases h

/-- **A loaded console saves the snapshot it was loaded from**, flag bytes aside. -/
theorem save_load {console console' : Console π} {s : Snapshot} (h : console.load s = .ok console') :
    console'.save = s.plain := by
  obtain ⟨hv, h⟩ := load_ok h
  obtain ⟨-, hs, cartridge, apu, hc, ha, rfl⟩ := loadContents_ok h
  have hcart : cartridge.map Cartridge.save = s.cartridge.map CartridgeState.plain := by
    rcases loadCartridge_ok hc with ⟨-, hsaved, rfl⟩ | ⟨c, state, c', -, hsaved, rfl, hload⟩
    · rw [hsaved]; rfl
    · rw [hsaved, Option.map_some, Option.map_some, Cartridge.save_load hload]
  simp only [save, Apu.save_load ha, hcart, Snapshot.plain, ← hv]

end Console
end NesConsole
