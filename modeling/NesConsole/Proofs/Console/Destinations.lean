import NesConsole.Console.Bus
import NesConsole.Proofs.Cartridge.Fits
/-!
# Where writes go

Each write of a processor goes to one part of the console and leaves all others as they are
(`ConsoleBus.write_delivered`): the board takes the addresses it claims, the memory map decides about the rest.  Only a
sprite transfer reaches further, since it reads its page as a processor does, and reading may change devices.
-/
namespace NesConsole

/-- What a write can go to. -/
inductive Destination where
  | board
  | workRam (index : Fin workRamSize)
  | video (register : Fin 8)
  /-- A sprite transfer from the page written. -/
  | sprites
  | sound
  | prgRam (index : Fin prgRamSize)
  | nowhere
  deriving DecidableEq

/-- What a cartridge makes of a write to `destination`: nothing but one byte of program RAM, or the board's registers and
the bank table, can change. -/
structure Cartridge.Receives (c : Cartridge) (destination : Destination) (address : UInt16) (value : UInt8)
    (after : Cartridge) : Prop where
  prg : after.prg = c.prg
  chr : after.chr = c.chr
  chrIsRam : after.chrIsRam = c.chrIsRam
  number : after.number = c.number
  prgRam : ∀ index, after.prgRam.get index = if destination = .prgRam index then value else c.prgRam.get index
  board : (after.board, after.banks) =
    if destination = .board then c.board.write address value c.banks else (c.board, c.banks)

namespace Cartridge.Receives

variable {destination : Destination}

theorem writeBoard (c : Cartridge) (address : UInt16) (value : UInt8) :
    c.Receives .board address value (c.writeBoard address value) :=
  ⟨rfl, rfl, rfl, c.board.write_number address value c.banks, fun _ => rfl, rfl⟩

theorem setPrgRam (c : Cartridge) (index : Fin prgRamSize) (address : UInt16) (value : UInt8) :
    c.Receives (.prgRam index) address value (c.setPrgRam index value) where
  prg := rfl
  chr := rfl
  chrIsRam := rfl
  number := rfl
  prgRam other := by simp [get_setPrgRam]
  board := rfl

theorem elsewhere (c : Cartridge) (hboard : destination ≠ .board) (hram : ∀ index, destination ≠ .prgRam index)
    (address : UInt16) (value : UInt8) : c.Receives destination address value c :=
  ⟨rfl, rfl, rfl, rfl, fun index => (if_neg (hram index)).symm, (if_neg hboard).symm⟩

end Cartridge.Receives

theorem Board.claims_below (board : Board) {address : UInt16} (h : address.toNat < 0x6000) :
    board.claims address = false := by
  refine List.any_eq_false.2 fun range hrange => ?_
  have hfirst : 0x6000 ≤ range.1.toNat := by
    cases board <;> simp only [writeRanges, List.not_mem_nil, List.mem_singleton] at hrange <;> subst hrange <;> decide
  simp only [Bool.and_eq_true, decide_eq_true_eq, UInt16.le_iff_toNat_le]
  omega

namespace ConsoleBus

variable {π : Type} [VideoUnit π]

omit [VideoUnit π] in
/-- The memory map of writes, with the board's claims in front.  A memory repeated over its addresses takes their low
bits. -/
def destination (bus : ConsoleBus π) (address : UInt16) : Destination :=
  if bus.claims address then .board
  else if address.toNat < 0x2000 then .workRam (BitVec.ofNat 11 address.toNat).toFin
  else if address.toNat < 0x4000 then .video (BitVec.ofNat 3 address.toNat).toFin
  else if address.toNat = 0x4014 then .sprites
  else if address.toNat < 0x4020 then .sound
  else if bus.cartridge.isSome ∧ 0x6000 ≤ address.toNat ∧ address.toNat < 0x8000 then
    .prgRam (BitVec.ofNat 13 address.toNat).toFin
  else .nowhere

/-- The bus after the first reads of a page, from its lowest address on. -/
def afterReads (bus : ConsoleBus π) (page : UInt8) : Nat → ConsoleBus π
  | 0 => bus
  | i + 1 => (Bus.read (bus.afterReads page i) (.ofNat (page.toNat * 256 + i))).2

/-- What the reads of a page give, each on the bus that those before it left. -/
def pageBytes (bus : ConsoleBus π) (page : UInt8) : Vector UInt8 256 :=
  .ofFn fun i => (Bus.read (bus.afterReads page i) (.ofNat (page.toNat * 256 + i))).1

/-- What a write to `destination` makes of each part of the console. -/
structure Delivers (bus : ConsoleBus π) (destination : Destination) (address : UInt16) (value : UInt8)
    (after : ConsoleBus π) : Prop where
  ram : ∀ index : Fin workRamSize, after.ram[index] = if destination = .workRam index then value else bus.ram[index]
  video : after.video = match destination with
    | .video register => VideoUnit.writeRegister bus.video register value
    | .sprites => VideoUnit.writeSprites (bus.afterReads value 256).video (bus.pageBytes value)
    | _ => bus.video
  apu : after.apu = match destination with
    | .sound => bus.apu.write address value
    | .sprites => (bus.afterReads value 256).apu
    | _ => bus.apu
  cartridge : Option.Rel (fun c after => c.Receives destination address value after) bus.cartridge after.cartridge
  lastRead : after.lastRead = if destination = .sprites then (bus.afterReads value 256).lastRead else bus.lastRead
  /-- A sum of words: cycles that no step collects start over behind 2^32. -/
  stall : after.stall = if destination = .sprites then bus.stall + 513 else bus.stall

/-! ## Sprite transfers -/

/-- A read leaves work RAM, the cartridge and the cycles owed as they are. -/
theorem read_memory (bus : ConsoleBus π) (address : UInt16) :
    (Bus.read bus address).2.ram = bus.ram ∧ (Bus.read bus address).2.cartridge = bus.cartridge ∧
      (Bus.read bus address).2.stall = bus.stall := by
  show (bus.fetch address).2.ram = bus.ram ∧ (bus.fetch address).2.cartridge = bus.cartridge ∧
    (bus.fetch address).2.stall = bus.stall
  unfold fetch
  repeat' split
  all_goals exact ⟨rfl, rfl, rfl⟩

theorem afterReads_memory (bus : ConsoleBus π) (page : UInt8) (count : Nat) :
    (bus.afterReads page count).ram = bus.ram ∧ (bus.afterReads page count).cartridge = bus.cartridge ∧
      (bus.afterReads page count).stall = bus.stall := by
  induction count with
  | zero => exact ⟨rfl, rfl, rfl⟩
  | succ count ih =>
    obtain ⟨hram, hcartridge, hstall⟩ := read_memory (bus.afterReads page count) (.ofNat (page.toNat * 256 + count))
    exact ⟨hram.trans ih.1, hcartridge.trans ih.2.1, hstall.trans ih.2.2⟩

theorem page_address (page : UInt8) (i : Nat) :
    page.toUInt16 <<< 8 + UInt16.ofNat i = UInt16.ofNat (page.toNat * 256 + i) := by
  have hpage : page.toUInt16 <<< 8 = UInt16.ofNat (page.toNat * 256) := by
    have hlt := page.toNat_lt
    apply UInt16.toNat_inj.1
    rw [UInt16.toNat_shiftLeft, UInt8.toNat_toUInt16, Nat.shiftLeft_eq, UInt16.toNat_ofNat']
    rfl
  rw [hpage, UInt16.ofNat_add]

theorem readBlock_page (bus : ConsoleBus π) (page : UInt8) (count : Nat) :
    readBlock (page.toUInt16 <<< 8) count bus =
      (.ofFn fun i => (Bus.read (bus.afterReads page i) (.ofNat (page.toNat * 256 + i))).1, bus.afterReads page count) := by
  induction count with
  | zero => rfl
  | succ count ih =>
    unfold readBlock
    rw [ih]
    dsimp only
    rw [page_address, Vector.ofFn_succ]
    rfl

theorem transferSprites_eq (bus : ConsoleBus π) (page : UInt8) :
    bus.transferSprites page = { bus.afterReads page 256 with
      video := VideoUnit.writeSprites (bus.afterReads page 256).video (bus.pageBytes page)
      stall := bus.stall + transferCycles } := by
  have hstall := (bus.afterReads_memory page 256).2.2
  unfold transferSprites
  rw [readBlock_page, ← hstall]
  rfl

/-! ## Deliveries -/

/-- **A write changes what its destination says**, and a sprite transfer what reading its page changes. -/
theorem write_eq (bus : ConsoleBus π) (address : UInt16) (value : UInt8) :
    Bus.write bus address value =
      match bus.destination address with
      | .board => { bus with cartridge := bus.cartridge.map (·.writeBoard address value) }
      | .workRam index => { bus with ram := bus.ram.set index value }
      | .video register => { bus with video := VideoUnit.writeRegister bus.video register value }
      | .sprites => bus.transferSprites value
      | .sound => { bus with apu := bus.apu.write address value }
      | .prgRam index => { bus with cartridge := bus.cartridge.map (·.setPrgRam index value) }
      | .nowhere => bus := by
  have hram : address < 0x2000 ↔ address.toNat < 0x2000 := UInt16.lt_iff_toNat_lt
  have hvideo : address < 0x4000 ↔ address.toNat < 0x4000 := UInt16.lt_iff_toNat_lt
  have hsprites : address = 0x4014 ↔ address.toNat = 0x4014 := UInt16.toNat_inj.symm
  have hsound : address < 0x4020 ↔ address.toNat < 0x4020 := UInt16.lt_iff_toNat_lt
  show bus.write address value = _
  unfold ConsoleBus.write store destination
  simp only [hram, hvideo, hsprites, hsound]
  by_cases hclaims : bus.claims address = true
  · rw [if_pos hclaims, if_pos hclaims]
  rw [if_neg hclaims, if_neg hclaims]
  -- the first four classes of addresses are told apart alike on both sides
  split
  · rfl
  split
  · rfl
  split
  · rfl
  split
  · rfl
  have hstored : bus.cartridge.map (·.write address value) =
      if bus.cartridge.isSome ∧ 0x6000 ≤ address.toNat ∧ address.toNat < 0x8000 then
        bus.cartridge.map (·.setPrgRam (Cartridge.prgRamIndex address) value)
      else bus.cartridge := by
    cases hinserted : bus.cartridge with
    | none => simp
    | some c =>
      have hleft : c.claims address = false := by simpa [claims, hinserted] using hclaims
      by_cases hkept : Cartridge.InPrgRam address
      · rw [Option.map_some, c.write_left hleft, if_pos hkept, if_pos ⟨rfl, hkept⟩]
        rfl
      · rw [Option.map_some, c.write_left hleft, if_neg hkept, if_neg fun h => hkept h.2]
  rw [hstored]
  split <;> rfl

theorem rel_map {R : Cartridge → Cartridge → Prop} {f : Cartridge → Cartridge} (h : ∀ c, R c (f c))
    (inserted : Option Cartridge) : Option.Rel R inserted (inserted.map f) := by
  cases inserted with
  | none => exact .none
  | some c => exact .some (h c)

theorem rel_elsewhere {destination : Destination} (hboard : destination ≠ .board)
    (hram : ∀ index, destination ≠ .prgRam index) (address : UInt16) (value : UInt8) (inserted : Option Cartridge) :
    Option.Rel (fun c after => c.Receives destination address value after) inserted inserted := by
  have hrel := rel_map (fun c => Cartridge.Receives.elsewhere c hboard hram address value) inserted
  rwa [Option.map_id'] at hrel

theorem write_delivers (bus : ConsoleBus π) (address : UInt16) (value : UInt8) :
    bus.Delivers (bus.destination address) address value (Bus.write bus address value) := by
  rw [write_eq]
  cases bus.destination address with
  | board =>
    exact ⟨fun _ => rfl, rfl, rfl, rel_map (fun c => .writeBoard c address value) _, rfl, rfl⟩
  | workRam index =>
    refine ⟨fun other => ?_, rfl, rfl, rel_elsewhere (by simp) (by simp) address value _, rfl, rfl⟩
    simp [Vector.getElem_set, Fin.ext_iff]
  | video register =>
    exact ⟨fun _ => rfl, rfl, rfl, rel_elsewhere (by simp) (by simp) address value _, rfl, rfl⟩
  | sprites =>
    obtain ⟨hram, hcartridge, -⟩ := bus.afterReads_memory value 256
    rw [transferSprites_eq]
    constructor
    case ram => simp [hram]
    case cartridge =>
      dsimp only
      rw [hcartridge]
      exact rel_elsewhere (by simp) (by simp) address value _
    all_goals simp only [if_true, transferCycles]
  | sound =>
    exact ⟨fun _ => rfl, rfl, rfl, rel_elsewhere (by simp) (by simp) address value _, rfl, rfl⟩
  | prgRam index =>
    exact ⟨fun _ => rfl, rfl, rfl, rel_map (fun c => .setPrgRam c index address value) _, rfl, rfl⟩
  | nowhere =>
    exact ⟨fun _ => rfl, rfl, rfl, rel_elsewhere (by simp) (by simp) address value _, rfl, rfl⟩

/-! ## What the board leaves to the console -/

section

omit [VideoUnit π]

theorem claims_below (bus : ConsoleBus π) {address : UInt16} (h : address.toNat < 0x6000) :
    bus.claims address = false := by
  unfold claims
  cases bus.cartridge with
  | none => rfl
  | some c => exact c.board.claims_below h

/-- No board takes the write that starts a sprite transfer. -/
theorem destination_eq_sprites (bus : ConsoleBus π) (address : UInt16) :
    bus.destination address = .sprites ↔ address = 0x4014 := by
  constructor
  · intro h
    unfold destination at h
    repeat' split at h
    all_goals first | exact UInt16.toNat_inj.1 ‹_› | cases h
  · rintro rfl
    rw [destination, bus.claims_below (by decide)]
    rfl

theorem destination_ram (bus : ConsoleBus π) {address : UInt16} (h : address.toNat < 0x2000) :
    bus.destination address = .workRam (BitVec.ofNat 11 address.toNat).toFin := by
  rw [destination, bus.claims_below (by omega), if_neg Bool.false_ne_true, if_pos h]

end

/-! ## Work RAM -/

/-- Reads of memory and of the cartridge change nothing but the byte last read. -/
theorem read_quiet (bus : ConsoleBus π) {address : UInt16} (h : address < 0x2000 ∨ 0x4020 ≤ address) :
    (Bus.read bus address).2 = { bus with lastRead := (Bus.read bus address).1 } := by
  have hfetch : (bus.fetch address).2 = bus := by
    unfold fetch
    obtain h | h := h
    · rw [if_pos h]
    · rw [if_neg (by grind), if_neg (by grind), if_neg (by grind), if_neg (by grind)]
  change { (bus.fetch address).2 with lastRead := (bus.fetch address).1 } = _
  rw [hfetch]
  rfl

theorem read_ram (bus : ConsoleBus π) {address : UInt16} (h : address.toNat < 0x2000) :
    (Bus.read bus address).1 = bus.ram[Fin.ofNat workRamSize address.toNat] := by
  show (bus.fetch address).1 = _
  rw [fetch, if_pos (UInt16.lt_iff_toNat_lt.2 h)]
  rfl

/-- **A write goes to one part of the console.**  What it makes of each part is what its destination says, and work RAM
reads back as one memory of 2 KiB. -/
theorem write_delivered (bus : ConsoleBus π) (address : UInt16) (value : UInt8) :
    bus.Delivers (bus.destination address) address value (Bus.write bus address value) ∧
    (address.toNat < 0x2000 → ∀ other : UInt16, other.toNat < 0x2000 →
      (Bus.read (Bus.write bus address value) other).1 =
        if address.toNat % 0x800 = other.toNat % 0x800 then value else (Bus.read bus other).1) := by
  refine ⟨bus.write_delivers address value, fun haddress other hother => ?_⟩
  have hram := (bus.write_delivers address value).ram (.ofNat workRamSize other.toNat)
  rw [destination_ram bus haddress] at hram
  rw [read_ram _ hother, read_ram _ hother, hram]
  simp only [Destination.workRam.injEq, Fin.ext_iff]
  rfl

/-- The last copy of work RAM is written and the first one read.  A transfer from there is not free. -/
theorem write_delivered_mirrored :
    let bus : ConsoleBus VideoLatch := { video := { value := 0 } }
    (Bus.read (Bus.write bus 0x1FFF 0x5A) 0x07FF).1 = 0x5A ∧ (Bus.write bus 0x4014 0x1F).stall = 513 := by
  intro bus
  constructor
  · exact ((bus.write_delivered 0x1FFF 0x5A).2 (by decide) 0x07FF (by decide)).trans (if_pos (by decide))
  · have hstall := (bus.write_delivered 0x4014 0x1F).1.stall
    rwa [if_pos ((bus.destination_eq_sprites 0x4014).2 rfl)] at hstall

end ConsoleBus
end NesConsole
