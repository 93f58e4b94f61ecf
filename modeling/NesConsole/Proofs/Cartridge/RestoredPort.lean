import NesConsole.Proofs.Cartridge.SerialPort
/-!
# What a restored MMC1 board commits

A snapshot brings a shift register and a count of its own.  A load bounds the count but not the register, which is kept
in a whole byte: what stands above its five bits moves down with every write, and is still there when the last bit
completes the value.  `Mmc1.getLsbD_shiftedFrom` follows each bit of the register, `Cartridge.load_commits` says what the
writes behind a load commit, and `Cartridge.load_leaks` shows a snapshot that turns five zeros into a seven.
-/
namespace NesConsole

namespace CartridgeAction

/-- The action leaves a value begun at the serial port to its writes. -/
def continues : CartridgeAction → Bool
  | reset | load _ => false
  | read _ | write _ _ | readPattern _ | writePattern _ _ | hblank _ => true

/-- What the action writes to program space, where the serial port is. -/
def serial? : CartridgeAction → Option UInt8
  | write address value => if 0x8000 ≤ address then some value else none
  | read _ | readPattern _ | writePattern _ _ | hblank _ | reset | load _ => none

theorem serial?_some {action : CartridgeAction} {value : UInt8} (h : action.serial? = some value) :
    ∃ address, 0x8000 ≤ address ∧ action = write address value := by
  cases action with
  | write address written =>
    simp only [serial?, Option.ite_none_right_eq_some, Option.some.injEq] at h
    exact ⟨address, h.1, h.2 ▸ rfl⟩
  | read | readPattern | writePattern | hblank | reset | load => cases h

end CartridgeAction

/-- All that the actions write to the serial port. -/
def serialWrites (actions : List CartridgeAction) : List UInt8 := actions.filterMap CartridgeAction.serial?

/-- What the port takes of each write. -/
def lowBits (values : List UInt8) : List Bool := values.map (·.toBitVec.getLsbD 0)

namespace Mmc1

/-! ## The shift register -/

/-- The shift register after these bits, from whatever it held before. -/
def shiftedFrom (register : UInt8) (bits : List Bool) : UInt8 :=
  bits.foldl (fun shift bit => shift >>> 1 ||| bit.toUInt8 <<< (4 : UInt8)) register

theorem getLsbD_shift (register : UInt8) (bit : Bool) (k : Nat) :
    (register >>> 1 ||| bit.toUInt8 <<< 4).toBitVec.getLsbD k =
      (register.toBitVec.getLsbD (k + 1) || (bit && decide (k = 4))) := by
  rw [UInt8.toBitVec_or, BitVec.getLsbD_or, getLsbD_flag bit 4 (by decide), UInt8.toBitVec_shiftRight]
  congr 1
  exact (BitVec.getLsbD_ushiftRight ..).trans (congrArg _ (Nat.add_comm 1 k))

/-- **Every bit of the register** comes from as many places above as bits were shifted in, or is one of them. -/
theorem getLsbD_shiftedFrom (register : UInt8) (bits : List Bool) (k : Nat) :
    (shiftedFrom register bits).toBitVec.getLsbD k =
      (register.toBitVec.getLsbD (k + bits.length) ||
        (decide (5 ≤ k + bits.length) && bits.getD (k + bits.length - 5) false)) := by
  induction bits generalizing register with
  | nil => simp [shiftedFrom]
  | cons bit bits ih =>
    have hnext : shiftedFrom register (bit :: bits) = shiftedFrom (register >>> 1 ||| bit.toUInt8 <<< 4) bits := rfl
    rw [hnext, ih, getLsbD_shift, List.length_cons, ← Nat.add_assoc, Bool.or_assoc]
    congr 1
    -- the first bit is in place 4 at once, and the others stand above it
    obtain hbelow | hplace | habove := Nat.lt_trichotomy (k + bits.length) 4
    · simp [Nat.ne_of_lt hbelow, Nat.not_le.2 hbelow, Nat.not_le.2 (Nat.lt_succ_of_lt hbelow)]
    · simp [hplace]
    · obtain ⟨j, hj⟩ := Nat.exists_eq_add_of_le' habove
      simp [hj]

/-! ## Completed values -/

variable {m : Mmc1} {bits : List Bool} {value : UInt8}

/-- The value that these bits complete. -/
def completed (m : Mmc1) (bits : List Bool) : BitVec 5 := (shiftedFrom m.shift bits).toBitVec.setWidth 5

/-- Whether what the register holds above its five bits sets the `i`-th bit still to be written. -/
def leaks (m : Mmc1) (i : Nat) : Bool := m.shift.toBitVec.getLsbD (5 + i)

theorem widened_completed (m : Mmc1) (bits : List Bool) :
    SerialPort.widened (m.completed bits) = shiftedFrom m.shift bits &&& 0x1F := by
  have h : ∀ n : Fin 256, SerialPort.widened ((UInt8.ofFin n).toBitVec.setWidth 5) = UInt8.ofFin n &&& 0x1F := by
    decide +kernel
  exact h (shiftedFrom m.shift bits).toFin

theorem getLsbD_completed (m : Mmc1) (bits : List Bool) {k : Nat} (hk : k < 5) :
    (m.completed bits).getLsbD k = (m.shift.toBitVec.getLsbD (k + bits.length) ||
      (decide (5 ≤ k + bits.length) && bits.getD (k + bits.length - 5) false)) := by
  rw [completed, BitVec.getLsbD_setWidth, decide_eq_true hk, Bool.true_and, getLsbD_shiftedFrom]

/-- The bits shifted in before stay below. -/
theorem completed_low (hcount : m.shiftCount.toNat + bits.length = 5) {k : Nat} (hk : k < m.shiftCount.toNat) :
    (m.completed bits).getLsbD k = m.shift.toBitVec.getLsbD (k + bits.length) := by
  rw [m.getLsbD_completed bits (by omega), decide_eq_false (by omega), Bool.false_and, Bool.or_false]

theorem completed_new (hcount : m.shiftCount.toNat + bits.length = 5) {i : Nat} (hi : i < bits.length) :
    (m.completed bits).getLsbD (m.shiftCount.toNat + i) = (m.leaks i || bits[i]) := by
  have hplace : m.shiftCount.toNat + i + bits.length = 5 + i := by omega
  rw [m.getLsbD_completed bits (by omega), hplace, Nat.add_sub_cancel_left, decide_eq_true (Nat.le_add_right 5 i),
    Bool.true_and, ← List.getElem_eq_getD]
  rfl

/-- **Five bits that nothing is added to are the value.** -/
theorem completed_five (hcount : m.shiftCount.toNat + bits.length = 5) (hclean : ∀ i < bits.length, m.leaks i = false)
    {v : BitVec 5} (hbits : bits = List.ofFn fun i : Fin 5 => v.getLsbD i) : m.completed bits = v := by
  have hlength : bits.length = 5 := hbits ▸ List.length_ofFn
  have hempty : m.shiftCount.toNat = 0 := by omega
  refine BitVec.eq_of_getLsbD_eq fun i hi => ?_
  have hnew := completed_new hcount (hlength.symm ▸ hi : i < bits.length)
  rw [hempty, Nat.zero_add, hclean i (hlength.symm ▸ hi), Bool.false_or] at hnew
  rw [hnew]
  simp only [hbits, List.getElem_ofFn]

/-! ## Single writes -/

/-- The board after these bits, as long as they complete no value. -/
def shiftedIn (m : Mmc1) (bits : List Bool) : Mmc1 :=
  { m with shift := shiftedFrom m.shift bits, shiftCount := m.shiftCount + .ofNat bits.length }

theorem shiftedIn_nil (m : Mmc1) : m.shiftedIn [] = m := by
  simp [shiftedIn, shiftedFrom]

theorem shiftedIn_cons (m : Mmc1) (bit : Bool) (bits : List Bool) :
    m.shiftedIn (bit :: bits) = (m.shiftedIn [bit]).shiftedIn bits := by
  have hcount : m.shiftCount + .ofNat (bit :: bits).length = m.shiftCount + 1 + .ofNat bits.length := by
    rw [List.length_cons, Nat.add_comm, UInt8.ofNat_add, ← UInt8.add_assoc]
    rfl
  rw [shiftedIn, hcount]
  rfl

theorem completed_append (m : Mmc1) (earlier later : List Bool) :
    m.completed (earlier ++ later) = (m.shiftedIn earlier).completed later :=
  congrArg (fun register : UInt8 => register.toBitVec.setWidth 5) List.foldl_append

/-- The count is far from the end of its byte. -/
theorem toNat_shiftCount (m : Mmc1) {bits : List Bool} (h : m.shiftCount.toNat + bits.length < 0x100) :
    (m.shiftedIn bits).shiftCount.toNat = m.shiftCount.toNat + bits.length := by
  have hlength : (UInt8.ofNat bits.length).toNat = bits.length :=
    UInt8.toNat_ofNat_of_lt' (Nat.lt_of_le_of_lt (Nat.le_add_left _ _) h)
  show (m.shiftCount + .ofNat bits.length).toNat = _
  rw [UInt8.toNat_add, hlength]
  exact Nat.mod_eq_of_lt h

/-- A commit drops what is shifted in. -/
theorem commit_shiftedIn (m : Mmc1) (bits : List Bool) (address : UInt16) (committed : UInt8) :
    ((m.shiftedIn bits).commit address committed).clearShift = (m.commit address committed).clearShift := by
  unfold commit
  split <;> rfl

theorem write_shiftedIn (m : Mmc1) (address : UInt16) (h : value.toBitVec.getLsbD 7 = false) (banks : Banks) :
    m.write address value banks =
      let shifted := m.shiftedIn (lowBits [value])
      if shifted.shiftCount < 5 then (shifted, banks)
      else
        let committed := (shifted.commit address (shifted.shift &&& 0x1F)).clearShift
        (committed, committed.layout banks) := by
  unfold Mmc1.write
  rw [flag_ne 0x80 7 (by decide) rfl, if_neg (Bool.eq_false_iff.1 h), and_one]
  rfl

theorem toNat_shiftCount_one (m : Mmc1) (value : UInt8) (h : m.shiftCount.toNat < 5) :
    (m.shiftedIn (lowBits [value])).shiftCount.toNat = m.shiftCount.toNat + 1 := by
  refine m.toNat_shiftCount (Nat.lt_of_lt_of_le ?_ (by decide : 6 ≤ 0x100))
  exact Nat.succ_lt_succ h

theorem write_part (m : Mmc1) (address : UInt16) (h : value.toBitVec.getLsbD 7 = false)
    (hcount : m.shiftCount.toNat < 4) (banks : Banks) :
    m.write address value banks = (m.shiftedIn (lowBits [value]), banks) := by
  have hfew : (m.shiftedIn (lowBits [value])).shiftCount < 5 := by
    rw [UInt8.lt_iff_toNat_lt, m.toNat_shiftCount_one value (by omega)]
    exact Nat.succ_lt_succ hcount
  exact (m.write_shiftedIn address h banks).trans (if_pos hfew)

/-- **The fifth bit commits the low five of the register.** -/
theorem write_fifth (m : Mmc1) (address : UInt16) (h : value.toBitVec.getLsbD 7 = false)
    (hcount : m.shiftCount.toNat = 4) (banks : Banks) :
    m.write address value banks =
      let committed := (m.commit address (SerialPort.widened (m.completed (lowBits [value])))).clearShift
      (committed, committed.layout banks) := by
  have hfull : ¬(m.shiftedIn (lowBits [value])).shiftCount < 5 := by
    rw [UInt8.lt_iff_toNat_lt, m.toNat_shiftCount_one value (by omega), hcount]
    decide
  refine (m.write_shiftedIn address h banks).trans ((if_neg hfull).trans ?_)
  rw [commit_shiftedIn, widened_completed]
  rfl

end Mmc1

/-! ## Histories -/

namespace Cartridge

variable {c c' : Cartridge} {m : Mmc1}

/-- Whatever else is done, only writes to program space reach the board. -/
theorem act_unwritten (hboard : c.board = .mmc1 m) {action : CartridgeAction} (hcontinues : action.continues = true)
    (hserial : action.serial? = none) : ((c.act action).board, (c.act action).banks) = (.mmc1 m, c.banks) := by
  have hload : action.loads = false := by cases action <;> first | rfl | cases hcontinues
  rw [c.act_board hload, hboard]
  cases action with
  | read | readPattern | writePattern | hblank => rfl
  | write address value =>
    have hclaims : (Board.mmc1 m).claims address = decide (0x8000 ≤ address) := Board.claims_space rfl address
    simp only [CartridgeAction.serial?, ite_eq_right_iff, reduceCtorEq, imp_false] at hserial
    simp only [Board.respond, hclaims, decide_eq_true_eq, if_neg hserial]
  | reset | load => cases hcontinues

theorem act_written (hboard : c.board = .mmc1 m) {address : UInt16} (ha : 0x8000 ≤ address) (value : UInt8) :
    ((c.act (.write address value)).board, (c.act (.write address value)).banks) =
      (.mmc1 (m.write address value c.banks).1, (m.write address value c.banks).2) := by
  have hclaims : (Board.mmc1 m).claims address = decide (0x8000 ≤ address) := Board.claims_space rfl address
  rw [c.act_board rfl, hboard]
  simp only [Board.respond, hclaims, decide_eq_true_eq, if_pos ha]
  rfl

/-- **Writes that complete no value are kept as their bits**, and map nothing. -/
theorem following_shiftedIn (hboard : c.board = .mmc1 m) {actions : List CartridgeAction}
    (hcontinues : ∀ action ∈ actions, action.continues = true)
    (hclear : ∀ value ∈ serialWrites actions, value.toBitVec.getLsbD 7 = false)
    (hfew : m.shiftCount.toNat + (serialWrites actions).length < 5) :
    (c.following actions).board = .mmc1 (m.shiftedIn (lowBits (serialWrites actions))) ∧
      (c.following actions).banks = c.banks := by
  induction actions generalizing c m with
  | nil => exact ⟨hboard.trans (congrArg _ m.shiftedIn_nil.symm), rfl⟩
  | cons action actions ih =>
    have hfirst := hcontinues action List.mem_cons_self
    have hrest : ∀ other ∈ actions, other.continues = true := fun other h => hcontinues other (List.mem_cons_of_mem _ h)
    cases hserial : action.serial? with
    | none =>
      have hwrites : serialWrites (action :: actions) = serialWrites actions := List.filterMap_cons_none hserial
      rw [hwrites] at hclear hfew ⊢
      obtain ⟨hboard', hbanks'⟩ := Prod.mk.inj (act_unwritten hboard hfirst hserial)
      obtain ⟨hlast, hbanks⟩ := ih hboard' hrest hclear hfew
      exact ⟨hlast, hbanks.trans hbanks'⟩
    | some value =>
      have hwrites : serialWrites (action :: actions) = value :: serialWrites actions :=
        List.filterMap_cons_some hserial
      rw [hwrites] at hclear hfew ⊢
      rw [List.length_cons] at hfew
      obtain ⟨address, ha, rfl⟩ := CartridgeAction.serial?_some hserial
      have hcount := m.toNat_shiftCount_one value (by omega)
      obtain ⟨hboard', hbanks'⟩ := Prod.mk.inj (act_written hboard ha value)
      rw [m.write_part address (hclear value List.mem_cons_self) (by omega)] at hboard' hbanks'
      obtain ⟨hlast, hbanks⟩ := ih hboard' hrest (fun other h => hclear other (List.mem_cons_of_mem _ h))
        (by rw [hcount]; omega)
      refine ⟨hlast.trans ?_, hbanks.trans hbanks'⟩
      exact congrArg Board.mmc1 (m.shiftedIn_cons _ _).symm

theorem following_snoc (c : Cartridge) (earlier : List CartridgeAction) (action : CartridgeAction) :
    c.following (earlier ++ [action]) = (c.following earlier).act action :=
  List.foldl_append

/-- **The write that completes a value commits what the whole register then holds.** -/
theorem following_commits (hboard : c.board = .mmc1 m) (earlier : List CartridgeAction) {address : UInt16} (last : UInt8)
    (hcontinues : ∀ action ∈ earlier, action.continues = true)
    (hclear : ∀ value ∈ serialWrites earlier ++ [last], value.toBitVec.getLsbD 7 = false) (ha : 0x8000 ≤ address)
    (hcount : m.shiftCount.toNat + (lowBits (serialWrites earlier ++ [last])).length = 5) :
    let value := m.completed (lowBits (serialWrites earlier ++ [last]))
    let committed := (m.commit address (SerialPort.widened value)).clearShift
    (c.following (earlier ++ [.write address last])).board = .mmc1 committed ∧
      (c.following (earlier ++ [.write address last])).banks = committed.layout c.banks := by
  rw [lowBits, List.length_map, List.length_append, List.length_singleton] at hcount
  have hlast : last.toBitVec.getLsbD 7 = false := hclear last (List.mem_append_right _ List.mem_cons_self)
  obtain ⟨hboard', hbanks'⟩ := following_shiftedIn hboard hcontinues
    (fun value h => hclear value (List.mem_append_left _ h)) (by omega)
  have hfour : (m.shiftedIn (lowBits (serialWrites earlier))).shiftCount.toNat = 4 := by
    rw [m.toNat_shiftCount] <;> rw [lowBits, List.length_map] <;> omega
  have hvalue : m.completed (lowBits (serialWrites earlier ++ [last])) =
      (m.shiftedIn (lowBits (serialWrites earlier))).completed (lowBits [last]) := by
    rw [lowBits, List.map_append]
    exact m.completed_append _ _
  obtain ⟨hboard'', hbanks''⟩ := Prod.mk.inj (act_written hboard' ha last)
  rw [hbanks', Mmc1.write_fifth _ address hlast hfour] at hboard'' hbanks''
  dsimp only at hboard'' hbanks''
  rw [Mmc1.commit_shiftedIn, ← hvalue] at hboard'' hbanks''
  rw [following_snoc]
  exact ⟨hboard'', hbanks''⟩

/-! ## Behind a load -/

/-- An MMC1 board takes any registers over whose count is below five. -/
theorem load_mmc1 {before : Mmc1} (hboard : c.board = .mmc1 before) {state : CartridgeState}
    (hload : c.load state = .ok c') :
    ∃ m : Mmc1, c'.board = .mmc1 m ∧ m.save = state.boardRegisters ∧ m.shiftCount.toNat < 5 := by
  obtain ⟨-, -, -, -, -, board, -, -, -, -, hregisters, rfl⟩ := load_ok hload
  rw [hboard] at hregisters
  obtain ⟨m, hm, rfl⟩ := map_eq_ok.1 hregisters
  obtain ⟨hsave, hcount⟩ := Mmc1.load_ok hm
  exact ⟨m, rfl, hsave, UInt8.lt_iff_toNat_lt.1 hcount⟩

/-- **What the writes behind a load commit.**  Of a value begun with `c` bits, the low `c` come from the saved register;
each of the others is the bit written for it, or set by what the register held above its five bits.  Where that is
nothing, the bits are those written, and five writes of a value commit the value. -/
theorem load_commits {before : Mmc1} (hboard : c.board = .mmc1 before) {state : CartridgeState}
    (hload : c.load state = .ok c') :
    ∃ m : Mmc1, c'.board = .mmc1 m ∧ m.save = state.boardRegisters ∧ m.shiftCount.toNat < 5 ∧
      ∀ (earlier : List CartridgeAction) (address : UInt16) (last : UInt8),
        let written := serialWrites earlier ++ [last]
        let bits := lowBits written
        (∀ action ∈ earlier, action.continues = true) → (∀ value ∈ written, value.toBitVec.getLsbD 7 = false) →
        0x8000 ≤ address → m.shiftCount.toNat + bits.length = 5 →
        ∃ value : BitVec 5,
          let committed := (m.commit address (SerialPort.widened value)).clearShift
          (c'.following (earlier ++ [.write address last])).board = .mmc1 committed ∧
          (c'.following (earlier ++ [.write address last])).banks = committed.layout c'.banks ∧
          (∀ k < m.shiftCount.toNat, value.getLsbD k = m.shift.toBitVec.getLsbD (k + bits.length)) ∧
          (∀ i (_ : i < bits.length), value.getLsbD (m.shiftCount.toNat + i) = (m.leaks i || bits[i])) ∧
          ((∀ i < bits.length, m.leaks i = false) →
            (∀ i (_ : i < bits.length), value.getLsbD (m.shiftCount.toNat + i) = bits[i]) ∧
            ∀ v : BitVec 5, bits = List.ofFn (fun i : Fin 5 => v.getLsbD i) → value = v) := by
  obtain ⟨m, hboard', hsave, hstart⟩ := load_mmc1 hboard hload
  refine ⟨m, hboard', hsave, hstart, ?_⟩
  intro earlier address last written bits hcontinues hclear ha hcount
  obtain ⟨hlast, hbanks⟩ := following_commits hboard' earlier last hcontinues hclear ha hcount
  have hnew : ∀ i (_ : i < bits.length), (m.completed bits).getLsbD (m.shiftCount.toNat + i) = (m.leaks i || bits[i]) :=
    fun i hi => Mmc1.completed_new hcount hi
  refine ⟨m.completed bits, hlast, hbanks, fun k hk => Mmc1.completed_low hcount hk, hnew, fun hclean =>
    ⟨fun i hi => ?_, fun v hv => Mmc1.completed_five hcount hclean hv⟩⟩
  rw [hnew i hi, hclean i hi, Bool.false_or]

/-- A board that nothing was loaded into holds nothing above the five bits. -/
theorem following_leaks {prg chr : Array UInt8} {mirroring : Mirroring} (h : ofImages prg chr Mmc1.number mirroring = .ok c)
    {actions : List CartridgeAction} (hactions : ∀ action ∈ actions, action.loads = false) :
    ∃ m : Mmc1, (c.following actions).board = .mmc1 m ∧ ∀ i, m.leaks i = false := by
  refine ⟨_, (following_isKept h hactions).board, fun i => ?_⟩
  have hregister : (SerialPort.after actions.reverse).stored.shift =
      Mmc1.shiftedFrom 0x10 (SerialPort.after actions.reverse).pending := rfl
  have hmark : (0x10 : UInt8).toBitVec.getLsbD (5 + i + (SerialPort.after actions.reverse).pending.length) = false := by
    rw [show (0x10 : UInt8).toBitVec = BitVec.twoPow 8 4 from rfl, BitVec.getLsbD_twoPow]
    simp
    omega
  rw [Mmc1.leaks, hregister, Mmc1.getLsbD_shiftedFrom, hmark]
  simp [Nat.add_assoc]

/-- A cartridge of 64 KiB that accepted these registers. -/
theorem ofImages_restored (m : Mmc1) (hcount : m.shiftCount < 5) :
    ∃ (prg : Array UInt8) (c c' : Cartridge), prg.size = 0x10000 ∧ ofImages prg #[] Mmc1.number .vertical = .ok c ∧
      (∃ before, c.board = .mmc1 before) ∧ c.load { c.save with boardRegisters := m.save } = .ok c' ∧
      c'.board = .mmc1 m := by
  let source : CartridgeSource := { prg := .replicate 0x10000 0xEA, chr := #[], number := Mmc1.number }
  obtain ⟨c, hc⟩ := ofImages_ok source (by simp [source]) (by simp [source, prgBankSize]) rfl rfl .vertical
  have hfits : c.Fits source := ofImages_fits hc
  have hboard : c.board = _ := (following_isKept hc (List.forall_mem_nil _)).board
  have hrestored : Cartridge.Fits source { c with board := .mmc1 m } := { hfits with number := rfl, board := hcount }
  have hsave : { c.save with boardRegisters := m.save } = Cartridge.save { c with board := .mmc1 m } := by
    have hnumber : c.number = Mmc1.number := hfits.number
    simp only [save, hnumber]
    rfl
  have hload := (congrArg c.load hsave).trans (load_save hrestored hfits)
  exact ⟨source.prg, c, _, by simp [source], hc, ⟨_, hboard⟩, hload, rfl⟩

/-- Eleven, over a register full of ones. -/
theorem load_commits_eleven :
    ∃ (prg : Array UInt8) (c c' : Cartridge), prg.size = 0x10000 ∧ ofImages prg #[] Mmc1.number .vertical = .ok c ∧
      c.load { c.save with boardRegisters := #[0x1F, 0, 0x0C, 0, 0, 0] } = .ok c' ∧
      (c'.following [.write 0x8000 1, .write 0x8000 1, .hblank 0, .write 0x8000 0, .write 0x8000 0x7F,
        .write 0xE000 2]).board = .mmc1 { prg := 0x0B } := by
  obtain ⟨prg, c, c', hsize, hc, ⟨before, hboard⟩, hload, hboard'⟩ := ofImages_restored { shift := 0x1F } (by decide)
  refine ⟨prg, c, c', hsize, hc, hload, ?_⟩
  obtain ⟨m, hm, -, -, hcommits⟩ := load_commits hboard hload
  obtain rfl : m = { shift := 0x1F } := Board.mmc1.inj (hm.symm.trans hboard')
  obtain ⟨value, hlast, -, -, -, hclean⟩ := hcommits
    [.write 0x8000 1, .write 0x8000 1, .hblank 0, .write 0x8000 0, .write 0x8000 0x7F] 0xE000 2
    (by decide) (by decide +kernel) (by decide) (by decide +kernel)
  obtain rfl : value = 0x0B := (hclean (by decide +kernel)).2 0x0B (by decide +kernel)
  exact hlast

/-- **A register with bits above its five turns five zeros into a seven.** -/
theorem load_leaks :
    ∃ (prg : Array UInt8) (c c' : Cartridge), prg.size = 0x10000 ∧ ofImages prg #[] Mmc1.number .vertical = .ok c ∧
      c.load { c.save with boardRegisters := #[0xFF, 0, 0x0C, 0, 0, 0] } = .ok c' ∧
      (c'.following (.replicate 5 (.write 0xE000 0))).board = .mmc1 { prg := 7 } := by
  obtain ⟨prg, c, c', hsize, hc, -, hload, hboard'⟩ := ofImages_restored { shift := 0xFF } (by decide)
  refine ⟨prg, c, c', hsize, hc, hload, ?_⟩
  obtain ⟨hlast, -⟩ := following_commits hboard' (.replicate 4 (.write 0xE000 0)) 0 (by decide)
    (by decide +kernel) (by decide : 0x8000 ≤ (0xE000 : UInt16)) (by decide +kernel)
  exact hlast

end Cartridge
end NesConsole
