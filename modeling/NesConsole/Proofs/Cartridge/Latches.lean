import NesConsole.Proofs.Cartridge.Selections
import NesConsole.Proofs.Cartridge.Histories
/-!
# Boards with a single latch

Six of the boards hold one byte at most, and not even that in a register of their own: it stands in the bank table as the
selections made for it.  `Board.latched` is the table of a latch that holds a given byte.  A reset sets the latch to 0 and
a claimed write sets it to the value written, whatever it held before (`Board.reset_latched`, `Board.write_latched`), so
that after any history all that is mapped follows from the last of these (`Cartridge.following_latch`).
-/
namespace NesConsole
namespace Board

/-- The board has no more memory than one byte. -/
def isLatch : Board → Bool
  | nrom | uxRom | cnRom | axRom | gxRom | board87 => true
  | mmc1 _ | mmc3 _ => false

/-- Where a write goes to the latch. -/
def LatchesAt (board : Board) (address : UInt16) : Prop :=
  match board with
  | nrom => False
  | board87 => 0x6000 ≤ address.toNat ∧ address.toNat < 0x8000
  | uxRom | cnRom | axRom | gxRom | mmc1 _ | mmc3 _ => 0x8000 ≤ address.toNat

instance (board : Board) (address : UInt16) : Decidable (board.LatchesAt address) :=
  match board with
  | nrom => .isFalse id
  | board87 => inferInstanceAs (Decidable (_ ∧ _))
  | uxRom | cnRom | axRom | gxRom | mmc1 _ | mmc3 _ => inferInstanceAs (Decidable (_ ≤ _))

/-- The byte in the latch after a history: the last one written to it since power-on or a reset. -/
def lastLatched (board : Board) : List CartridgeAction → UInt8
  | [] | .reset :: _ => 0
  | .write address value :: earlier => if board.LatchesAt address then value else lastLatched board earlier
  | .read _ :: earlier | .readPattern _ :: earlier | .writePattern _ _ :: earlier | .hblank _ :: earlier
  | .load _ :: earlier => lastLatched board earlier

/-! ## What a byte in the latch selects -/

/-- The 8 KiB windows of program space, from the first one on, that the latch switches as one. -/
def latchedWindows : Board → Nat
  | uxRom => 2
  | nrom | cnRom | axRom | gxRom | board87 | mmc1 _ | mmc3 _ => 4

/-- The program bank in these windows. -/
def latchedPrg (board : Board) (value : UInt8) : Nat :=
  match board with
  | uxRom => value.toNat
  | axRom => value.toNat % 8
  | gxRom => value.toNat / 16 % 4
  | nrom | cnRom | board87 | mmc1 _ | mmc3 _ => 0

/-- The 8 KiB pattern bank. -/
def latchedChr (board : Board) (value : UInt8) : Nat :=
  match board with
  | cnRom => value.toNat
  | gxRom => value.toNat % 4
  | board87 => value.toNat % 2 * 2 + value.toNat / 2 % 2
  | nrom | uxRom | axRom | mmc1 _ | mmc3 _ => 0

/-- Only AxROM chooses its nametables. -/
def latchedNametables (board : Board) (built : Mirroring) (value : UInt8) : Mirroring :=
  match board with
  | axRom => if value.toBitVec.getLsbD 4 then .single1 else .single0
  | nrom | uxRom | cnRom | gxRom | board87 | mmc1 _ | mmc3 _ => built

/-- The 8 KiB program bank of a window, also of those that the latch does not switch. -/
def latchedWindow (board : Board) (value : UInt8) (count slot : Nat) : Nat :=
  if slot < board.latchedWindows then board.latchedPrg value * board.latchedWindows + slot
  else (max (count / 2) 1 - 1) * 2 + slot % 2

/-- The bank table while the latch holds `value`. -/
def latched (board : Board) (value : UInt8) (t : Banks) : Banks :=
  { t with
    prg := .ofFn fun slot => board.latchedWindow value t.prgCount slot % t.prgCount
    chr := .ofFn fun slot => (board.latchedChr value * 8 + slot) % t.chrCount
    mirroring := board.latchedNametables t.mirroring value }

/-! ## The fields of a value -/

theorem toNat_swapLowBits (value : UInt8) :
    (swapLowBits value).toNat = value.toNat % 2 * 2 + value.toNat / 2 % 2 := by
  have h : ∀ n : Fin 256, (swapLowBits (.ofFin n)).toNat = n.val % 2 * 2 + n.val / 2 % 2 := by decide +kernel
  exact h value.toFin

/-! ## Resets and writes -/

theorem claims_iff {board : Board} (h : board.isLatch = true) (address : UInt16) :
    board.claims address = true ↔ board.LatchesAt address := by
  cases board with
  | mmc1 | mmc3 => cases h
  | nrom => exact ⟨Bool.noConfusion, False.elim⟩
  | uxRom | cnRom | axRom | gxRom =>
    rw [claims_space rfl, decide_eq_true_iff]
    exact UInt16.le_iff_toNat_le
  | board87 =>
    simp only [claims, writeRanges, LatchesAt, List.any_cons, List.any_nil, Bool.or_false, Bool.and_eq_true,
      decide_eq_true_eq, UInt16.le_iff_toNat_le]
    exact and_congr_right fun _ => Nat.lt_succ_iff.symm

/-- **A reset sets the latch to 0.** -/
theorem reset_latched {board : Board} (h : board.isLatch = true) (t : Banks) :
    board.reset t = (board, board.latched 0 t) := by
  cases board with
  | mmc1 | mmc3 => cases h
  | nrom | cnRom | gxRom | board87 | axRom =>
    simp only [reset, Banks.mapStart_eq]
    rfl
  | uxRom =>
    simp only [reset, Banks.mapEnds_eq]
    rfl

/-- **A claimed write sets the latch**, and nothing of what it held before is left. -/
theorem write_latched {board : Board} (h : board.isLatch = true) {address : UInt16} (ha : board.LatchesAt address)
    (value before : UInt8) (t : Banks) :
    board.write address value (board.latched before t) = (board, board.latched value t) := by
  cases board with
  | mmc1 | mmc3 => cases h
  | nrom => exact ha.elim
  | uxRom => rfl
  | cnRom =>
    simp only [write, Banks.selectChr8_eq]
    rfl
  | axRom =>
    simp only [write, Banks.selectPrg32_eq, Banks.setMirroring, toNat_low 0x07 3 rfl,
      flag_eq 0x10 4 (by decide) rfl]
    simp only [latched, latchedNametables]
    cases value.toBitVec.getLsbD 4 <;> rfl
  | gxRom =>
    simp only [write, Banks.selectPrg32_eq, Banks.selectChr8_eq, toNat_low 0x03 2 rfl,
      toNat_shiftRight_four]
    rfl
  | board87 =>
    simp only [write, Banks.selectChr8_eq, toNat_swapLowBits]
    rfl

/-- **An action leaves the latch with the last byte of the history that it ends.** -/
theorem respond_latched {board : Board} (h : board.isLatch = true) {action : CartridgeAction}
    (hload : action.loads = false) (history : List CartridgeAction) (t : Banks) :
    board.respond (board.latched (board.lastLatched history) t) action =
      (board, board.latched (board.lastLatched (action :: history)) t) := by
  cases action with
  | read | readPattern | writePattern => rfl
  | hblank scanline =>
    cases board with
    | mmc1 | mmc3 => cases h
    | nrom | uxRom | cnRom | axRom | gxRom | board87 => rfl
  | reset =>
    simp only [respond, reset_latched h, lastLatched]
    cases board <;> rfl
  | write address value =>
    simp only [respond, lastLatched, claims_iff h]
    split
    · next ha => exact write_latched h ha value _ t
    · rfl
  | load state => cases hload

end Board

/-! ## Pattern memory -/

def CartridgeAction.writesPattern : CartridgeAction → Bool
  | writePattern _ _ => true
  | read _ | write _ _ | readPattern _ | hblank _ | reset | load _ => false

/-- What pattern space is made of when the cartridge is built. -/
def CartridgeSource.pattern (source : CartridgeSource) : Array UInt8 :=
  if source.chr.size = 0 then .replicate chrRamSize 0 else source.chr

namespace Cartridge

variable {source : CartridgeSource} {prg chr : Array UInt8} {number : UInt16} {mirroring : Mirroring} {c : Cartridge}

theorem ofImages_pattern (h : ofImages prg chr number mirroring = .ok c) :
    c.chr = CartridgeSource.pattern { prg, chr, number } := by
  obtain ⟨blank, hblank, rfl⟩ := ofImages_blank h
  exact hblank.chr

theorem act_chr (c : Cartridge) {action : CartridgeAction} (hload : action.loads = false)
    (hwrite : action.writesPattern = false) : (c.act action).chr = c.chr := by
  cases action with
  | read | readPattern | hblank | reset => rfl
  | write address value =>
    simp only [act, Cartridge.write]
    split
    · rfl
    · split <;> rfl
  | writePattern address value => cases hwrite
  | load state => cases hload

theorem following_chr {actions : List CartridgeAction} (hactions : ∀ action ∈ actions, action.loads = false)
    (hwrites : ∀ action ∈ actions, action.writesPattern = false) : (c.following actions).chr = c.chr := by
  induction actions generalizing c with
  | nil => rfl
  | cons action actions ih =>
    have hrest : ((c.act action).following actions).chr = (c.act action).chr :=
      ih (fun other hother => hactions other (List.mem_cons_of_mem _ hother))
        (fun other hother => hwrites other (List.mem_cons_of_mem _ hother))
    exact hrest.trans (c.act_chr (hactions action List.mem_cons_self) (hwrites action List.mem_cons_self))

/-- Pattern memory stays as it is built until it is written, and an image cannot be. -/
theorem following_pattern (h : ofImages prg chr number mirroring = .ok c) {actions : List CartridgeAction}
    (hactions : ∀ action ∈ actions, action.loads = false)
    (hkept : (∀ action ∈ actions, action.writesPattern = false) ∨ chr.size ≠ 0) :
    (c.following actions).chr = CartridgeSource.pattern { prg, chr, number } := by
  rcases hkept with hwrites | hrom
  · exact (following_chr hactions hwrites).trans (ofImages_pattern h)
  · have hfits := (ofImages_fits h).following actions
    rw [hfits.chr (hfits.chrIsRam.trans (decide_eq_false hrom))]
    exact (if_neg hrom).symm

theorem readPattern_wraps (c : Cartridge) (address : UInt16) :
    c.readPattern (address % 0x2000) = c.readPattern address := by
  have hoffset : c.banks.chrOffset (address % 0x2000) = c.banks.chrOffset address := by
    simp [Banks.chrOffset, UInt16.toNat_mod]
  simp only [Cartridge.readPattern, hoffset]

/-! ## What a program sees -/

/-- What is seen of a latch that holds `value`.  Bank numbers count modulo the images. -/
structure ShowsLatch (c : Cartridge) (board : Board) (value : UInt8) : Prop where
  prg : ∀ address : UInt16, 0x8000 ≤ address.toNat → address.toNat < 0x8000 + board.latchedWindows * 0x2000 →
    c.prg[(board.latchedPrg value * (board.latchedWindows * 0x2000) +
      address.toNat % (board.latchedWindows * 0x2000)) % c.prg.size]? = some (c.read address)
  chr : ∀ address : UInt16,
    c.chr[(board.latchedChr value * 0x2000 + address.toNat % 0x2000) % c.chr.size]? = some (c.readPattern address)
  kept : ∀ address other, ¬board.LatchesAt address → (c.write address other).banks = c.banks

theorem write_unclaimed (c : Cartridge) {address : UInt16} (h : c.claims address = false) (value : UInt8) :
    (c.write address value).banks = c.banks := by
  rw [c.write_left h]
  split <;> rfl

theorem Fits.showsLatch (h : c.Fits source) (hb : source.Banked) (hlatch : c.board.isLatch = true) {value : UInt8}
    {t : Banks} (hbanks : c.banks = c.board.latched value t) : c.ShowsLatch c.board value := by
  have hwindows : c.board.latchedWindows = 2 ∨ c.board.latchedWindows = 4 := by
    unfold Board.latchedWindows
    split <;> simp
  have hprg : c.ShowsPrg (0x8000 + 0 * prgBankSize) (c.board.latchedWindows * prgBankSize) (c.board.latchedPrg value) := by
    refine h.showsPrg hb (by omega) fun slot hslot => ?_
    simp only [hbanks, Board.latched, Vector.getElem_ofFn, Nat.zero_add, Board.latchedWindow, if_pos hslot]
  have hchr : c.ShowsChr (0 * chrBankSize) (8 * chrBankSize) (c.board.latchedChr value) := by
    refine h.showsChr hb (by omega) fun slot hslot => ?_
    simp only [hbanks, Board.latched, Vector.getElem_ofFn, Nat.zero_add]
  refine ⟨fun address hfirst hlast => ?_, fun address => ?_, fun address other helsewhere => ?_⟩
  · have hwithin : address.toNat % (c.board.latchedWindows * 0x2000) = address.toNat - 0x8000 := by
      rcases hwindows with hn | hn <;> rw [hn] at hlast ⊢ <;> omega
    rw [hwithin]
    exact (hprg address hfirst hlast).2
  · have hwithin : (address % 0x2000).toNat = address.toNat % 0x2000 := UInt16.toNat_mod address 0x2000
    have hlast : (address % 0x2000).toNat < 0x2000 := hwithin ▸ Nat.mod_lt _ (by decide)
    have hshown := (hchr (address % 0x2000) (by simp) (by simpa [chrBankSize] using hlast)).2
    simpa [c.readPattern_wraps, chrBankSize] using hshown
  · exact c.write_unclaimed (Bool.eq_false_iff.2 (mt (Board.claims_iff hlatch address).1 helsewhere)) other

theorem following_latched {board : Board} (h : ofImages prg chr board.number mirroring = .ok c)
    (hlatch : board.isLatch = true) {actions : List CartridgeAction}
    (hactions : ∀ action ∈ actions, action.loads = false) :
    ∃ t : Banks, t.mirroring = mirroring ∧ (c.following actions).board = board ∧
      (c.following actions).banks = board.latched (board.lastLatched actions.reverse) t := by
  have hkept := following_invariant h (fun history state => ∃ t : Banks, t.mirroring = mirroring ∧
    state = (board, board.latched (board.lastLatched history) t)) ?_ ?_ hactions
  · obtain ⟨t, hmirroring, hstate⟩ := hkept
    exact ⟨t, hmirroring, congrArg Prod.fst hstate, congrArg Prod.snd hstate⟩
  · intro other banks hother _ hmirroring
    obtain rfl : board = other := by
      cases board <;> cases hlatch <;> exact Option.some.inj hother
    exact ⟨banks, hmirroring, Board.reset_latched hlatch banks⟩
  · rintro history action _ _ hload _ ⟨t, hmirroring, hstate⟩
    obtain ⟨rfl, rfl⟩ := Prod.mk.inj hstate
    exact ⟨t, hmirroring, Board.respond_latched hlatch hload history t⟩

/-- **All that a board with a single latch maps follows from the last byte written to it**, whatever else is done with the
cartridge. -/
theorem following_latch {board : Board} (h : ofImages prg chr board.number mirroring = .ok c)
    (hlatch : board.isLatch = true) {actions : List CartridgeAction}
    (hactions : ∀ action ∈ actions, action.loads = false) :
    (c.following actions).prg = prg ∧
      ((∀ action ∈ actions, action.writesPattern = false) ∨ chr.size ≠ 0 →
        (c.following actions).chr = CartridgeSource.pattern { prg, chr, number := board.number }) ∧
      (c.following actions).ShowsLatch board (board.lastLatched actions.reverse) ∧
      (c.following actions).mirroring = board.latchedNametables mirroring (board.lastLatched actions.reverse) := by
  have hfits := (ofImages_fits h).following actions
  obtain ⟨t, hmirroring, hboard, hbanks⟩ := following_latched h hlatch hactions
  refine ⟨hfits.prg, following_pattern h hactions, ?_, ?_⟩
  · have hshows := hfits.showsLatch (ofImages_banked h) (hboard.symm ▸ hlatch) (hboard.symm ▸ hbanks)
    rwa [hboard] at hshows
  · rw [Cartridge.mirroring, hbanks, ← hmirroring]
    rfl

/-- The second 32 KiB of a GxROM image of 24 KiB start inside it and start over with its first bank. -/
theorem following_latch_gxRom :
    ∃ (prg : Array UInt8) (c : Cartridge), prg.size = 0x6000 ∧ (∀ i < 0x6000, prg[i]? = some (.ofNat (i / 0x2000))) ∧
      ofImages prg #[] Board.gxRom.number .vertical = .ok c ∧
      let c' := c.following [.write 0xFFFF 0x12, .hblank 0, .write 0x6000 0x20]
      c'.read 0x8000 = 1 ∧ c'.read 0xBFFF = 2 ∧ c'.read 0xC000 = 0 ∧ c'.mirroring = .vertical := by
  obtain ⟨prg, hsize, hget⟩ : ∃ prg : Array UInt8,
      prg.size = 0x6000 ∧ ∀ i < 0x6000, prg[i]? = some (.ofNat (i / 0x2000)) :=
    ⟨.ofFn fun i : Fin 0x6000 => .ofNat (i / 0x2000), Array.size_ofFn,
      fun i hi => by rw [Array.getElem?_ofFn, dif_pos hi]⟩
  obtain ⟨c, hc⟩ := ofImages_ok { prg, chr := #[], number := Board.gxRom.number } (by dsimp only; omega)
    (by dsimp only; rw [hsize]; rfl) rfl rfl .vertical
  have hactions : ∀ action ∈ [.write 0xFFFF 0x12, .hblank 0, .write 0x6000 0x20],
      CartridgeAction.loads action = false := by decide
  have hlatch : Board.gxRom.isLatch = true := rfl
  obtain ⟨hprg, -, hshows, hmirroring⟩ := following_latch hc hlatch hactions
  have hread (address : UInt16) (ha : 0x8000 ≤ address.toNat) {bank : UInt8}
      (hbank : UInt8.ofNat ((0x8000 + address.toNat % 0x8000) % 0x6000 / 0x2000) = bank) :
      (c.following [.write 0xFFFF 0x12, .hblank 0, .write 0x6000 0x20]).read address = bank := by
    have hshown := hshows.prg address ha address.toNat_lt
    rw [hprg, hsize, hget _ (Nat.mod_lt _ (by decide))] at hshown
    exact (Option.some.inj hshown).symm.trans hbank
  exact ⟨prg, c, hsize, hget, hc, hread 0x8000 (by decide) (by decide), hread 0xBFFF (by decide) (by decide),
    hread 0xC000 (by decide) (by decide), hmirroring⟩

end Cartridge
end NesConsole
