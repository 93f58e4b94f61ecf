import NesConsole.Proofs.Cartridge.BankRegisters
import NesConsole.Proofs.Cartridge.SerialPort
/-!
# The bank of the vectors

The processor takes its vectors from the end of program space, so boards that switch the rest keep the end of the image
there.  MMC3 counts banks of 8 KiB and shows the last one.  UxROM and MMC1 count banks of 16 KiB, and where the image
has an odd number of 8 KiB the half bank at its end is left out: the window then shows the bank before
(`Cartridge.following_vectors`).
-/
namespace NesConsole

/-- The board keeps a bank fixed at the end of program space as its registers are. -/
def Board.fixesLast : Board → Bool
  | uxRom | mmc3 _ => true
  | mmc1 m => m.control >>> 2 &&& 0x03 == 3
  | nrom | cnRom | axRom | gxRom | board87 => false

/-- The distance from the end of the image, in banks, of the one shown at the vectors. -/
def Board.vectorDistance (number : UInt16) (count : Nat) : Nat :=
  if number = Mmc3.number ∨ count % 2 = 0 ∨ count = 1 then 1 else 2

namespace Banks

/-- The second half of the last bank of 16 KiB. -/
def lastHalf (count : Nat) : Nat := ((max (count / 2) 1 - 1) * 2 + 1) % count

theorem lastHalf_eq {number : UInt16} (hnumber : number ≠ Mmc3.number) {count : Nat} (hcount : 0 < count) :
    lastHalf count = (count - Board.vectorDistance number count) % count := by
  unfold lastHalf
  obtain rfl | hmany : count = 1 ∨ 1 < count := by omega
  · rw [Nat.mod_one, Nat.mod_one]
  · have hdistance : (max (count / 2) 1 - 1) * 2 + 1 = count - Board.vectorDistance number count := by
      simp only [Board.vectorDistance, hnumber, false_or]
      split <;> omega
    rw [hdistance]

theorem selectPrg16_low (b : Banks) (bank : Nat) : (b.selectPrg16 0 bank).prgBank 3 = b.prgBank 3 := by
  simp [selectPrg16, selectPrg8, prgBank]

end Banks

namespace Cartridge

variable {prg chr : Array UInt8} {number : UInt16} {mirroring : Mirroring} {c : Cartridge}

/-! ## The last window, board by board -/

/-- On a UxROM board only a reset sets it. -/
theorem following_uxRom (h : ofImages prg chr 2 mirroring = .ok c) {actions : List CartridgeAction}
    (hactions : ∀ action ∈ actions, action.loads = false) :
    (c.following actions).board = .uxRom ∧
      (c.following actions).banks.prgBank 3 = Banks.lastHalf (CartridgeSource.prgCount { prg, chr, number := 2 }) := by
  have hreset (banks : Banks) : (Board.uxRom.reset banks).2.prgBank 3 = Banks.lastHalf banks.prgCount := by
    simp only [Board.reset, Banks.mapEnds_eq, Banks.prgBank, Vector.getElem_ofFn]
    rfl
  refine following_invariant h (fun _ state => state.1 = .uxRom ∧
    state.2.prgBank 3 = Banks.lastHalf (CartridgeSource.prgCount { prg, chr, number := 2 })) ?_ ?_ hactions
  · intro board banks hboard hbanks _
    obtain rfl : Board.uxRom = board := Option.some.inj hboard
    exact ⟨rfl, (hreset banks).trans (congrArg _ hbanks.prgCount)⟩
  · rintro _ action _ banks hload hbanks ⟨rfl, hlast⟩
    cases action with
    | read | readPattern | writePattern | hblank => exact ⟨rfl, hlast⟩
    | reset => exact ⟨rfl, (hreset banks).trans (congrArg _ hbanks.prgCount)⟩
    | write address value =>
      simp only [Board.respond]
      split
      · exact ⟨rfl, (banks.selectPrg16_low _).trans hlast⟩
      · exact ⟨rfl, hlast⟩
    | load state => cases hload

/-- On an MMC1 board the mode decides. -/
theorem following_mmc1 (h : ofImages prg chr Mmc1.number mirroring = .ok c) {actions : List CartridgeAction}
    (hactions : ∀ action ∈ actions, action.loads = false) (hfixes : (c.following actions).board.fixesLast = true) :
    (c.following actions).banks.prgBank 3 =
      Banks.lastHalf (CartridgeSource.prgCount { prg, chr, number := Mmc1.number }) := by
  have hkept := following_isKept h hactions
  have hboard : (c.following actions).board = .mmc1 (SerialPort.after actions.reverse).stored := hkept.board
  have hmode : (SerialPort.after actions.reverse).control.getLsbD 3 = true ∧
      (SerialPort.after actions.reverse).control.getLsbD 2 = true := by
    rw [hboard] at hfixes
    simp only [Board.fixesLast, SerialPort.stored, SerialPort.widened_prgMode] at hfixes
    -- of the four modes only one passes the test
    revert hfixes
    cases (SerialPort.after actions.reverse).control.getLsbD 3 <;>
      cases (SerialPort.after actions.reverse).control.getLsbD 2 <;> decide
  have hprg : (c.following actions).banks.prg = (SerialPort.layout _ _ _).prg := congrArg BankState.prg hkept.banks
  simp only [Banks.prgBank, hprg, SerialPort.layout, Vector.getElem_ofFn, SerialPort.prgBank, hmode]
  rfl

theorem following_mmc3 (h : ofImages prg chr Mmc3.number mirroring = .ok c) {actions : List CartridgeAction}
    (hactions : ∀ action ∈ actions, action.loads = false) :
    (c.following actions).banks.prgBank 3 = (CartridgeSource.prgCount { prg, chr, number := Mmc3.number } - 1) %
      CartridgeSource.prgCount { prg, chr, number := Mmc3.number } :=
  (following_follows h hactions).prg 3 (by decide)

/-! ## All boards that fix it -/

/-- What a bank near the end of the image looks like from the last window. -/
theorem Fits.read_last {source : CartridgeSource} (h : c.Fits source) (hb : source.Banked) {distance : Nat}
    (hpos : 0 < distance) (hlast : c.banks.prgBank 3 = (c.banks.prgCount - distance) % c.banks.prgCount)
    {address : UInt16} (ha : 0xE000 ≤ address) :
    c.prg[c.prg.size - distance * 0x2000 + (address.toNat - 0xE000)]? = some (c.read address) := by
  have hfirst : 0xE000 ≤ address.toNat := UInt16.le_iff_toNat_le.1 ha
  have hspace : address.toNat < 0x10000 := address.toNat_lt
  have hshows := h.showsPrg_window hb (by decide) hlast
  have hsize := h.prg_banks hb
  have himage := c.prg_pos
  have hoffset : ((c.banks.prgCount - distance) * 0x2000 + (address.toNat - 0xE000)) % c.prg.size =
      c.prg.size - distance * 0x2000 + (address.toNat - 0xE000) := by
    rw [Nat.sub_mul, show c.banks.prgCount * 0x2000 = c.prg.size from hsize.symm]
    unfold prgBankSize at hsize
    exact Nat.mod_eq_of_lt (by omega)
  rw [← hoffset]
  exact (hshows address hfirst hspace).2

theorem following_lastWindow (h : ofImages prg chr number mirroring = .ok c) {actions : List CartridgeAction}
    (hactions : ∀ action ∈ actions, action.loads = false) (hfixes : (c.following actions).board.fixesLast = true) :
    (c.following actions).banks.prgBank 3 = (CartridgeSource.prgCount { prg, chr, number } -
      Board.vectorDistance number (CartridgeSource.prgCount { prg, chr, number })) %
        CartridgeSource.prgCount { prg, chr, number } := by
  have hfits := (ofImages_fits h).following actions
  have hnumber : (c.following actions).board.number = number := hfits.number
  have hpos : 0 < CartridgeSource.prgCount { prg, chr, number } := Nat.le_max_right _ _
  cases hboard : (c.following actions).board with
  | nrom | cnRom | axRom | gxRom | board87 =>
    rw [hboard] at hfixes
    cases hfixes
  | uxRom =>
    rw [hboard] at hnumber
    obtain rfl : number = 2 := hnumber.symm
    exact (following_uxRom h hactions).2.trans (Banks.lastHalf_eq (by decide) hpos)
  | mmc1 m =>
    rw [hboard] at hnumber
    obtain rfl : number = Mmc1.number := hnumber.symm
    exact (following_mmc1 h hactions hfixes).trans (Banks.lastHalf_eq (by decide) hpos)
  | mmc3 m =>
    rw [hboard] at hnumber
    obtain rfl : number = Mmc3.number := hnumber.symm
    exact following_mmc3 h hactions

/-- **The vectors are read from a fixed bank**, whatever is done with the cartridge.  On MMC3 it is the last 8 KiB of the
program image; on UxROM, and on MMC1 while its mode fixes a bank there, it is the 8 KiB before if their number is odd and
not one. -/
theorem following_vectors (h : ofImages prg chr number mirroring = .ok c) {actions : List CartridgeAction}
    (hactions : ∀ action ∈ actions, action.loads = false) (hfixes : (c.following actions).board.fixesLast = true)
    {address : UInt16} (ha : 0xE000 ≤ address) :
    prg[prg.size - Board.vectorDistance number (prg.size / 0x2000) * 0x2000 + (address.toNat - 0xE000)]? =
      some ((c.following actions).read address) := by
  have hfits := (ofImages_fits h).following actions
  have hcount : prg.size / 0x2000 = CartridgeSource.prgCount { prg, chr, number } := (ofImages_banked h).prgCount_eq
  have hlast := following_lastWindow h hactions hfixes
  have hpos : 0 < Board.vectorDistance number (CartridgeSource.prgCount { prg, chr, number }) := by
    unfold Board.vectorDistance
    split <;> decide
  rw [← hfits.banks.prgCount] at hlast hpos
  rw [hcount, ← hfits.banks.prgCount]
  have hread := hfits.read_last (ofImages_banked h) hpos hlast ha
  rwa [hfits.prg] at hread

/-- A UxROM cartridge with three banks of 8 KiB, each filled with its number. -/
theorem ofImages_three :
    ∃ (prg : Array UInt8) (c : Cartridge), prg.size = 0x6000 ∧ (∀ i < 0x6000, prg[i]? = some (.ofNat (i / 0x2000))) ∧
      ofImages prg #[] 2 .vertical = .ok c := by
  obtain ⟨prg, hsize, hget⟩ : ∃ prg : Array UInt8,
      prg.size = 0x6000 ∧ ∀ i < 0x6000, prg[i]? = some (.ofNat (i / 0x2000)) :=
    ⟨.ofFn fun i : Fin 0x6000 => .ofNat (i / 0x2000), Array.size_ofFn,
      fun i hi => by rw [Array.getElem?_ofFn, dif_pos hi]⟩
  obtain ⟨c, hc⟩ := ofImages_ok { prg, chr := #[], number := 2 } (by dsimp only; omega)
    (by dsimp only; rw [hsize]; rfl) rfl rfl .vertical
  exact ⟨prg, c, hsize, hget, hc⟩

/-- It reads its vectors from the middle one. -/
theorem following_vectors_three :
    ∃ (prg : Array UInt8) (c : Cartridge), prg.size = 0x6000 ∧ ofImages prg #[] 2 .vertical = .ok c ∧
      (c.following [.write 0x8000 5, .hblank 0]).board.fixesLast = true ∧
      (c.following [.write 0x8000 5, .hblank 0]).read 0xFFFC = 1 := by
  have hactions : ∀ action ∈ [.write 0x8000 5, .hblank 0], CartridgeAction.loads action = false := by decide
  obtain ⟨prg, c, hsize, hget, hc⟩ := ofImages_three
  have hfixes : (c.following [.write 0x8000 5, .hblank 0]).board.fixesLast = true := by
    rw [(following_uxRom hc hactions).1]
    rfl
  have hread := following_vectors hc hactions hfixes (by decide : 0xE000 ≤ (0xFFFC : UInt16))
  rw [hsize, hget _ (by decide)] at hread
  exact ⟨prg, c, hsize, hc, hfixes, (Option.some.inj hread).symm⟩

/-- That is not the bank at the end of the image. -/
theorem vectors_not_last :
    ∃ (prg : Array UInt8) (c : Cartridge), prg.size = 0x6000 ∧ ofImages prg #[] 2 .vertical = .ok c ∧
      c.board.fixesLast = true ∧
      prg[prg.size - 0x2000 + ((0xE000 : UInt16).toNat - 0xE000)]? ≠ some (c.read 0xE000) := by
  obtain ⟨prg, c, hsize, hget, hc⟩ := ofImages_three
  have hfits := ofImages_fits hc
  obtain ⟨hboard, hslot⟩ : c.board = .uxRom ∧ _ := following_uxRom hc (List.forall_mem_nil _)
  have hcount : c.banks.prgCount = 3 := by
    rw [hfits.banks.prgCount, CartridgeSource.prgCount, hsize]
    rfl
  have hlast : c.banks.prgBank 3 = (c.banks.prgCount - 2) % c.banks.prgCount := by
    rw [hcount]
    refine hslot.trans ?_
    rw [← hfits.banks.prgCount, hcount]
    rfl
  have hread := hfits.read_last (ofImages_banked hc) (by decide) hlast (by decide : 0xE000 ≤ (0xE000 : UInt16))
  refine ⟨prg, c, hsize, hc, by rw [hboard]; rfl, fun hsame => ?_⟩
  rw [← hread, hfits.prg, hsize, hget _ (by decide), hget _ (by decide)] at hsame
  exact absurd hsame (by decide)

end Cartridge
end NesConsole
