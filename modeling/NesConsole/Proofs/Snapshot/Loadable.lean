import NesConsole.Proofs.Console.Genuine
/-!
# Genuine snapshots are accepted

What a reachable console saves is accepted by every console with a cartridge of the same images and board
(`Console.Reachable.save_loadable`).  The checks refuse whole ranges of counters and bank numbers; the invariants say
that a run never gets there.
-/
namespace NesConsole

theorem Processor.load_ok {cpu : Processor} {registers : Registers} (h : registers.Reserved) :
    cpu.load registers = .ok { cpu with registers, operation := none } := by
  unfold Processor.load Registers.check
  rw [if_pos (show registers.p.reserved = true from h)]
  rfl

namespace Console

variable {π : Type} {source : Option CartridgeSource}

/-- `console` with all that a snapshot of `saved` holds. -/
def takeOver (console saved : Console π) : Console π :=
  { console with
    cpu := { console.cpu with registers := saved.cpu.registers, operation := none }
    bus := { console.bus with
      ram := saved.bus.ram
      apu := { saved.bus.apu with pads := console.bus.apu.pads }
      cartridge := saved.bus.cartridge }
    irq := saved.irq }

theorem loadCartridge_save {saved own : Option Cartridge} (hs : Option.Rel Cartridge.Fits source saved)
    (ho : Option.Rel Cartridge.Fits source own) : loadCartridge own (saved.map Cartridge.save) = .ok saved := by
  cases hs with
  | none => cases ho; rfl
  | some hs =>
    cases ho with
    | some ho => simp only [loadCartridge, Option.map_some, Cartridge.load_save hs ho]; rfl

/-- **A genuine snapshot is accepted**, and the console then has all that it holds. -/
theorem load_save {console saved : Console π} (hs : saved.bus.Genuine source) (hr : saved.cpu.registers.Reserved)
    (ho : console.bus.Genuine source) : console.load saved.save = .ok (console.takeOver saved) := by
  have hcontents : console.loadContents saved.save = .ok (console.takeOver saved) := by
    unfold loadContents
    rw [show saved.save.cpu = saved.cpu.registers from rfl, Processor.load_ok hr]
    show (if h : saved.save.ram.size = workRamSize then _ else _) = _
    rw [dif_pos (show saved.save.ram.size = workRamSize from saved.bus.ram.size_toArray)]
    show (loadCartridge console.bus.cartridge (saved.bus.cartridge.map Cartridge.save) >>= fun cartridge =>
      console.bus.apu.load saved.bus.apu.save >>= fun apu => pure _) = _
    rw [loadCartridge_save hs.cartridge ho.cartridge, Apu.load_save _ hs.channels]
    rfl
  unfold load
  rw [if_pos (show saved.save.version = snapshotVersion from rfl), hcontents]
  rfl

/-- Registers, counters and bank numbers are such as a snapshot is accepted with. -/
structure InRange (console : Console π) : Prop where
  reserved : console.cpu.registers.p.reserved = true
  divider : ∀ pulse ∈ [console.bus.apu.channels.pulse1, console.bus.apu.channels.pulse2],
    -4 ≤ pulse.envelope.divider ∧ pulse.envelope.divider ≤ 15
  decay : ∀ pulse ∈ [console.bus.apu.channels.pulse1, console.bus.apu.channels.pulse2], pulse.envelope.decay ≤ 15
  sweep : ∀ pulse ∈ [console.bus.apu.channels.pulse1, console.bus.apu.channels.pulse2],
    -2 ≤ pulse.sweep.counter ∧ pulse.sweep.counter ≤ 9
  sampleLength : console.bus.apu.channels.dmc.sampleLength = 1 ∨ (console.bus.apu.channels.dmc.sampleLength % 8 = 0 ∧
    8 ≤ console.bus.apu.channels.dmc.sampleLength ∧ console.bus.apu.channels.dmc.sampleLength ≤ 128)
  dmaLength : console.bus.apu.channels.dmc.dmaLength ≤ 128
  shiftCount : ∀ cartridge ∈ console.bus.cartridge, ∀ m, cartridge.board = .mmc1 m → m.shiftCount < 5
  prg : ∀ cartridge ∈ console.bus.cartridge, ∀ bank ∈ cartridge.banks.prg, bank < cartridge.banks.prgCount
  chr : ∀ cartridge ∈ console.bus.cartridge, ∀ bank ∈ cartridge.banks.chr, bank < cartridge.banks.chrCount

theorem isSampleLength_iff {length : UInt16} :
    isSampleLength length = true ↔ length = 1 ∨ (length % 8 = 0 ∧ 8 ≤ length ∧ length ≤ 128) := by
  simp only [isSampleLength, Bool.or_eq_true, Bool.and_eq_true, beq_iff_eq, decide_eq_true_eq, and_assoc]
  rfl

theorem inRange_of_genuine {console : Console π} (h : console.bus.Genuine source)
    (hr : console.cpu.registers.Reserved) : console.InRange := by
  obtain ⟨hc, hslot⟩ := h
  have hfits : ∀ cartridge ∈ console.bus.cartridge, ∃ source, Cartridge.Fits source cartridge := by
    intro cartridge hmem
    rw [Option.mem_def] at hmem
    rw [hmem] at hslot
    cases hslot with
    | some h => exact ⟨_, h⟩
  refine ⟨hr, ?_, ?_, ?_, isSampleLength_iff.1 hc.dmc.sampleLength, hc.dmc.dmaLength, ?_, ?_, ?_⟩
  · exact List.forall_mem_cons.2 ⟨hc.pulse1.envelope.divider, List.forall_mem_singleton.2 hc.pulse2.envelope.divider⟩
  · exact List.forall_mem_cons.2 ⟨hc.pulse1.envelope.decay, List.forall_mem_singleton.2 hc.pulse2.envelope.decay⟩
  · exact List.forall_mem_cons.2 ⟨hc.pulse1.sweep.counter, List.forall_mem_singleton.2 hc.pulse2.sweep.counter⟩
  · intro cartridge hmem m hboard
    obtain ⟨_, h⟩ := hfits cartridge hmem
    have hgenuine := h.board
    rw [hboard] at hgenuine
    exact hgenuine
  · intro cartridge hmem bank hbank
    obtain ⟨_, h⟩ := hfits cartridge hmem
    exact h.banks.prgCount ▸ h.banks.prg bank hbank
  · intro cartridge hmem bank hbank
    obtain ⟨_, h⟩ := hfits cartridge hmem
    exact h.banks.chrCount ▸ h.banks.chr bank hbank

variable [VideoUnit π]

/-- **Every genuine snapshot is loadable**: what a console saves that was only driven by its operations is accepted by
every console with the same images and board, however that one was driven. -/
theorem Reachable.save_loadable {allowed : HostAction π → Prop} {saved console : Console π}
    (hs : Reachable (fun action => action.isAssignment = false) source saved) (hc : Reachable allowed source console) :
    console.load saved.save = .ok (console.takeOver saved) ∧ saved.InRange :=
  ⟨load_save hs.genuine hs.reserved hc.genuine, inRange_of_genuine hs.genuine hs.reserved⟩

end Console

theorem Cartridge.ofImages_ok (source : CartridgeSource) {board : Board} (hp : 0 < source.prg.size)
    (hprg : source.prg.size % prgBankSize = 0) (hchr : source.chr.size % chrBankSize = 0)
    (hb : Board.ofNumber? source.number = some board) (mirroring : Mirroring) :
    ∃ c, ofImages source.prg source.chr source.number mirroring = .ok c := by
  unfold ofImages
  rw [dif_neg (by omega), if_neg (not_not_intro hchr), hb]
  dsimp only
  split <;> exact ⟨_, rfl⟩

/-- A console with an MMC1 board and pattern RAM, after a frame's tick, and a fresh one that takes its snapshot over. -/
theorem Console.save_loadable_mmc1 :
    ∃ (source : CartridgeSource) (saved console : Console VideoLatch), source.number = 1 ∧
      Console.Reachable (fun action => action.isAssignment = false) (some source) saved ∧
      Console.Reachable (fun _ => True) (some source) console ∧
      console.load saved.save = .ok (console.takeOver saved) ∧ saved.InRange := by
  let source : CartridgeSource := { prg := .replicate 0x2000 0xEA, chr := #[], number := 1 }
  obtain ⟨cartridge, hc⟩ := Cartridge.ofImages_ok source (by simp [source]) (by simp [source, prgBankSize]) rfl rfl
    .vertical
  have hs : Console.Reachable (fun action => action.isAssignment = false) (some source)
      ((Console.initial ({ value := 0 } : VideoLatch) false).insert cartridge) := .insert (.new _ false) hc
  have hticked : Console.Reachable (fun action => action.isAssignment = false) (some source)
      (((Console.initial ({ value := 0 } : VideoLatch) false).insert cartridge).respond (.hblank 241)).2 := .act hs rfl
  have hfresh := Console.Reachable.mono (fun _ _ => trivial) hs
  exact ⟨source, _, _, rfl, hticked, hfresh, Console.Reachable.save_loadable hticked hfresh⟩

end NesConsole
