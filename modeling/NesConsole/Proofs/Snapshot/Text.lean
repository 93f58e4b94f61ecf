import NesConsole.Proofs.Json.Records
import NesConsole.Proofs.Json.RoundTrip
import NesConsole.Snapshot.Decoding
import NesConsole.Snapshot.Encoding
/-!
# Snapshots as text

Decoding undoes encoding: a snapshot is what its text says (`Snapshot.ofText_toText`).  The document of a snapshot is
plain, so its text is read back as it stands, and every record in it is read back from its fields.

The records are read by `simp -implicitDefEqProofs`: with proofs by reduction the kernel would run the bounds of the
numbers on open terms.
-/
namespace NesConsole

open Json

/-! ## The document is plain -/

attribute [simp] Plain.null Plain.bool Plain.integer Plain.string

@[simp] theorem Json.plain_ofNat (n : Nat) : (ofNat n).Plain := .integer n

theorem Json.plain_map {α : Type} {f : α → Json} (h : ∀ a, (f a).Plain) (l : List α) : (array (l.map f)).Plain := by
  refine .array fun item hi => ?_
  obtain ⟨a, -, rfl⟩ := List.mem_map.1 hi
  exact h a

theorem Json.plain_elim {α : Type} {f : α → Json} (h : ∀ a, (f a).Plain) (o : Option α) : (o.elim null f).Plain := by
  cases o with
  | none => exact .null
  | some a => exact h a

@[simp] theorem plain_bytesToJson (bytes : Array UInt8) : (bytesToJson bytes).Plain := by
  refine plain_map (fun b => ?_) bytes.toList
  exact plain_ofNat b.toNat

theorem ChannelState.plain_fields (state : ChannelState) : ∀ field ∈ state.fields, field.2.Plain := by
  cases state <;> simp [fields]

@[simp] theorem ChannelState.plain_toJson (state : ChannelState) : state.toJson.Plain :=
  .object (List.forall_mem_cons.2 ⟨.string _, state.plain_fields⟩)

@[simp] theorem Registers.plain_toJson (r : Registers) : r.toJson.Plain :=
  .object (by simp)

@[simp] theorem ApuState.plain_toJson (state : ApuState) : state.toJson.Plain :=
  .object (by simp [plain_map ChannelState.plain_toJson])

@[simp] theorem BankState.plain_toJson (state : BankState) : state.toJson.Plain :=
  .object (by simp [plain_map plain_ofNat])

@[simp] theorem CartridgeState.plain_toJson (state : CartridgeState) : state.toJson.Plain :=
  .object (by simp [plain_elim plain_bytesToJson])

theorem Snapshot.plain_toJson (s : Snapshot) : s.toJson.Plain :=
  .object (by simp [plain_elim CartridgeState.plain_toJson])

/-! ## The records are read back -/

@[simp] theorem bytes?_bytesToJson (bytes : Array UInt8) : bytes? (bytesToJson bytes) = some bytes := by
  rw [bytes?, bytesToJson, list?_map fun b _ => uint8?_ofNat b]
  rfl

@[simp] theorem vector?_bytesToJson {size : Nat} (bytes : Vector UInt8 size) :
    vector? size uint8? (bytesToJson bytes.toArray) = some bytes :=
  vector?_map fun b _ => uint8?_ofNat b

/-! ### Channels -/

theorem holdable_integer {i : Int} {depth : Nat} (h : i.natAbs < UInt64.size) : holdable depth (integer i) = true := by
  have hfits : fitsDouble i.natAbs 0 = true := fitsDouble_of_lt h
  cases depth <;> exact hfits

theorem holdable_ofNat {n depth : Nat} (h : n < UInt64.size) : holdable depth (ofNat n) = true :=
  holdable_integer h

theorem holdable_int16 (i : Int16) {depth : Nat} : holdable depth (integer i.toInt) = true := by
  have hlow := i.le_toInt
  have hhigh := i.toInt_lt
  have hsize : i.toInt.natAbs < UInt16.size := by unfold UInt16.size; omega
  exact holdable_integer (Nat.lt_trans hsize (by decide))

theorem holdable_bool (b : Bool) {depth : Nat} : holdable depth (bool b) = true := by
  cases depth <;> rfl

theorem holdable_bytesToJson (bytes : Array UInt8) {depth : Nat} : holdable (depth + 1) (bytesToJson bytes) = true := by
  refine List.all_eq_true.2 fun item hi => ?_
  obtain ⟨b, -, rfl⟩ := List.mem_map.1 hi
  exact holdable_ofNat (Nat.lt_trans b.toNat_lt (by decide))

theorem ChannelKind.name_inj {kind other : ChannelKind} : kind.name = other.name ↔ kind = other := by
  cases kind <;> cases other <;> decide

namespace ChannelState

theorem holdable_fields (state : ChannelState) : ∀ field ∈ state.fields, holdable holdableDepth field.2 = true := by
  have hbyte (b : UInt8) : holdable holdableDepth (ofNat b.toNat) = true :=
    holdable_ofNat (Nat.lt_trans b.toNat_lt (by decide))
  have hword (w : UInt16) : holdable holdableDepth (ofNat w.toNat) = true :=
    holdable_ofNat (Nat.lt_trans w.toNat_lt (by decide))
  have hbytes (bytes : Array UInt8) : holdable holdableDepth (bytesToJson bytes) = true := holdable_bytesToJson bytes
  cases state <;> simp [fields, hbyte, hword, hbytes, holdable_bool, holdable_int16]

theorem ofFields?_fields (state : ChannelState) : ofFields? state.kind.name (.ofFields state.fields) = some state := by
  have hnames : (state.fields.map (·.1)).Nodup := by cases state <;> simp [fields]
  unfold ofFields?
  simp only [record?_ofFields hnames, ChannelKind.name_inj]
  cases state with
  | pulse regs stopped length divider decay restarting counter => simp -implicitDefEqProofs [kind, fields]
  | triangle regs stopped length => simp -implicitDefEqProofs [kind, fields]
  | noise regs stopped length => simp -implicitDefEqProofs [kind, fields]
  | dmc regs stopped sampleLength dmaLength => simp -implicitDefEqProofs [kind, fields]

@[simp] theorem ofJson?_toJson (state : ChannelState) : ofJson? state.toJson = some state := by
  have htag : ∀ field ∈ state.fields, field.1 ≠ "kind" := by cases state <;> simp [fields]
  unfold ofJson? toJson
  rw [tagged?_ofFields state.holdable_fields htag]
  exact state.ofFields?_fields

end ChannelState

/-! ### The other records -/

@[simp] theorem Registers.ofJson?_toJson (r : Registers) : Registers.ofJson? r.toJson = some r := by
  unfold Registers.ofJson? Registers.toJson
  rw [record?_ofFields (by simp)]
  simp -implicitDefEqProofs

@[simp] theorem ApuState.ofJson?_toJson (state : ApuState) : ApuState.ofJson? state.toJson = some state := by
  have hchannels := list?_map fun channel (_ : channel ∈ state.channels) => channel.ofJson?_toJson
  unfold ApuState.ofJson? ApuState.toJson
  rw [record?_ofFields (by simp)]
  simp -implicitDefEqProofs [hchannels]

theorem Mirroring.ofName?_name (mirroring : Mirroring) : Mirroring.ofName? mirroring.name = some mirroring := by
  cases mirroring <;> decide

@[simp] theorem Mirroring.ofJson?_name (mirroring : Mirroring) :
    Mirroring.ofJson? (ofString mirroring.name) = some mirroring := by
  have hname : (ofString mirroring.name).variant? = some mirroring.name := Text.toString?_ofString _
  unfold Mirroring.ofJson?
  rw [hname]
  exact mirroring.ofName?_name

/-- Bank numbers that fit the 64 bits they have in a document. -/
structure BankState.Fits64 (state : BankState) : Prop where
  prg : ∀ bank ∈ state.prg, bank < UInt64.size
  chr : ∀ bank ∈ state.chr, bank < UInt64.size

theorem BankState.ofJson?_toJson {state : BankState} (h : state.Fits64) :
    BankState.ofJson? state.toJson = some state := by
  have hprg : vector? 4 bankNumber? (array (state.prg.toList.map ofNat)) = some state.prg :=
    vector?_map fun bank hb => natBelow?_ofNat (h.prg bank hb)
  have hchr : vector? 8 bankNumber? (array (state.chr.toList.map ofNat)) = some state.chr :=
    vector?_map fun bank hb => natBelow?_ofNat (h.chr bank hb)
  unfold BankState.ofJson? BankState.toJson
  rw [record?_ofFields (by simp)]
  simp -implicitDefEqProofs [hprg, hchr]

theorem CartridgeState.ofJson?_toJson {state : CartridgeState} (h : state.banks.Fits64) :
    CartridgeState.ofJson? state.toJson = some state := by
  have hchrRam := optional?_elim (o := state.chrRam) fun bytes _ => ⟨bytes?_bytesToJson bytes, nofun⟩
  unfold CartridgeState.ofJson? CartridgeState.toJson
  rw [record?_ofFields (by simp)]
  simp -implicitDefEqProofs [hchrRam, BankState.ofJson?_toJson h]

theorem CartridgeState.toJson_ne_null (state : CartridgeState) : state.toJson ≠ null := nofun

/-! ## Snapshots -/

namespace Json

/-- The document without the members of a name. -/
def without (name : String) : Json → Json
  | object members => object (members.filter (·.1 ≠ Text.ofString name))
  | json => json

theorem without_ofFields (name : String) (fields : List (String × Json)) :
    (ofFields fields).without name = ofFields (fields.filter (·.1 ≠ name)) := by
  have hkeys : ((fun member : Text × Json => decide (member.1 ≠ Text.ofString name)) ∘
      fun (key, value) => (Text.ofString key, value)) = fun field => decide (field.1 ≠ name) := by
    funext field
    simp only [Function.comp_apply, ne_eq, Text.ofString_inj]
  unfold without ofFields
  dsimp only
  rw [List.filter_map, hkeys]

theorem Plain.without {json : Json} (h : json.Plain) (name : String) : (json.without name).Plain := by
  cases h with
  | null => exact .null
  | bool value => exact .bool value
  | integer value => exact .integer value
  | string s => exact .string s
  | array h => exact .array h
  | object h =>
    rw [without_ofFields]
    exact .object fun field hf => h field (List.mem_filter.1 hf).1

end Json

namespace Snapshot

/-- The bank numbers of the cartridge, if there is one, fit the 64 bits they have in a document. -/
def BanksFit64 (s : Snapshot) : Prop := ∀ cartridge ∈ s.cartridge, cartridge.banks.Fits64

theorem BanksFit64.cartridge?_toJson {s : Snapshot} (h : s.BanksFit64) :
    optional? CartridgeState.ofJson? (some (s.cartridge.elim null CartridgeState.toJson)) = some s.cartridge :=
  optional?_elim fun cartridge hc => ⟨CartridgeState.ofJson?_toJson (h cartridge hc), cartridge.toJson_ne_null⟩

theorem ofJson?_toJson {s : Snapshot} (h : s.BanksFit64) : ofJson? s.toJson = some s := by
  unfold ofJson? toJson
  rw [record?_ofFields (by simp)]
  simp -implicitDefEqProofs [h.cartridge?_toJson, defaulted?]

/-- A document that says nothing about a pending interrupt has none. -/
theorem ofJson?_without_irqPending {s : Snapshot} (h : s.BanksFit64) :
    ofJson? (s.toJson.without "irq_pending") = some { s with irqPending := false } := by
  unfold ofJson? toJson
  rw [without_ofFields, record?_ofFields (by simp)]
  simp -implicitDefEqProofs [h.cartridge?_toJson, defaulted?]

theorem ofText_pretty {json : Json} (hp : json.Plain) {s : Snapshot} (hs : ofJson? json = some s) :
    ofText json.pretty = if s.version = snapshotVersion then .ok s else .error (.unsupportedVersion s.version) := by
  unfold ofText ofDocument
  rw [read?_pretty hp, Option.bind_some, hs]

/-- **Decoding undoes encoding.**  A snapshot of the version written here is what its text says, and without its
interrupt member the text says that none is pending.  Any other version is refused by its number. -/
theorem ofText_toText (s : Snapshot) (h : s.BanksFit64) :
    (s.version = 1 → ofText s.toText = .ok s ∧
      ofText (s.toJson.without "irq_pending").pretty = .ok { s with irqPending := false }) ∧
    (s.version ≠ 1 → ofText s.toText = .error (.unsupportedVersion s.version)) := by
  have hread := ofText_pretty s.plain_toJson (ofJson?_toJson h)
  have hreduced := ofText_pretty (s.plain_toJson.without "irq_pending") (ofJson?_without_irqPending h)
  refine ⟨fun hversion => ⟨hread.trans (if_pos hversion), hreduced.trans (if_pos hversion)⟩, fun hversion => ?_⟩
  exact hread.trans (if_neg hversion)

/-- A snapshot with the highest bank number, and no pattern RAM, with counters at the ends of their types. -/
theorem ofText_toText_highest :
    ∃ s : Snapshot, s.BanksFit64 ∧ ofText s.toText = .ok s ∧
      (s.cartridge.map fun cartridge => cartridge.banks.prg.toList) = some (List.replicate 4 (UInt64.size - 1)) ∧
      s.apu.channels = [.pulse (.replicate 4 255) true 255 (-32768) 255 true 32767] := by
  let banks : BankState := { prg := .replicate 4 (UInt64.size - 1), chr := .replicate 8 0, mirroring := .fourScreen }
  let cartridge : CartridgeState :=
    { boardNumber := 65535, banks, prgRam := #[], chrRam := none, boardRegisters := #[1] }
  let s : Snapshot := {
    version := 1, cpu := {}, ram := #[0], cartridge := some cartridge, irqPending := true
    apu := {
      regs := #[], frameInterrupt := true, dmcInterrupt := false
      channels := [.pulse (.replicate 4 255) true 255 (-32768) 255 true 32767] } }
  have hbanks : banks.Fits64 := ⟨by decide, by decide⟩
  have h : s.BanksFit64 := fun cartridge hc => Option.some.inj hc ▸ hbanks
  exact ⟨s, h, ((ofText_toText s h).1 rfl).1, rfl, rfl⟩

end Snapshot
end NesConsole
