import NesConsole.Json.Record
/-!
# Reading records back

Each reader of `Record` gives back what the matching constructor of a document was made of: numbers in their width,
lists, the fields of a record by name whatever their order, and the variant and the fields of a tagged record.
-/
namespace NesConsole

theorem mapM_map_some {α γ δ : Type} {f : α → γ} {g : γ → Option δ} {k : α → δ} {l : List α}
    (h : ∀ a ∈ l, g (f a) = some (k a)) : (l.map f).mapM g = some (l.map k) := by
  induction l with
  | nil => rfl
  | cons a l ih =>
    rw [List.map_cons, List.mapM_cons, h a List.mem_cons_self, ih fun b hb => h b (List.mem_cons_of_mem _ hb)]
    rfl

namespace Text

@[simp] theorem toString?_ofString (s : String) : (ofString s).toString? = some s := by
  unfold toString? ofString
  rw [mapM_map_some (k := id) ?_, List.map_id]
  · exact congrArg some String.ofList_toList
  · exact fun _ _ => rfl

theorem ofString_inj {s t : String} : ofString s = ofString t ↔ s = t := by
  refine ⟨fun h => ?_, congrArg ofString⟩
  have hs := congrArg toString? h
  rw [toString?_ofString, toString?_ofString] at hs
  exact Option.some.inj hs

end Text

namespace Json

/-! ## Values -/

theorem natBelow?_ofNat {n bound : Nat} (h : n < bound) : natBelow? bound (ofNat n) = some n := by
  have hn : (0 : Int) ≤ (n : Int) ∧ (n : Int) < bound := by omega
  simp only [ofNat, natBelow?, hn, and_self, if_true, Int.toNat_natCast]

@[simp] theorem uint8?_ofNat (b : UInt8) : uint8? (ofNat b.toNat) = some b := by
  rw [uint8?, natBelow?_ofNat b.toNat_lt]
  exact congrArg some (UInt8.ofNat_toNat ..)

@[simp] theorem uint16?_ofNat (w : UInt16) : uint16? (ofNat w.toNat) = some w := by
  rw [uint16?, natBelow?_ofNat w.toNat_lt]
  exact congrArg some (UInt16.ofNat_toNat ..)

@[simp] theorem uint32?_ofNat (w : UInt32) : uint32? (ofNat w.toNat) = some w := by
  rw [uint32?, natBelow?_ofNat w.toNat_lt]
  exact congrArg some (UInt32.ofNat_toNat ..)

@[simp] theorem int16?_integer (i : Int16) : int16? (integer i.toInt) = some i := by
  have hi : -0x8000 ≤ i.toInt ∧ i.toInt < 0x8000 := ⟨i.le_toInt, i.toInt_lt⟩
  rw [int16?, if_pos hi, Int16.ofInt_toInt]

@[simp] theorem bool?_bool (b : Bool) : bool? (bool b) = some b := rfl

theorem list?_map {α : Type} {item? : Json → Option α} {f : α → Json} {l : List α} (h : ∀ a ∈ l, item? (f a) = some a) :
    list? item? (array (l.map f)) = some l := by
  rw [list?, mapM_map_some (k := id) h, List.map_id]

theorem vector?_map {α : Type} {size : Nat} {item? : Json → Option α} {f : α → Json} {v : Vector α size}
    (h : ∀ a ∈ v, item? (f a) = some a) : vector? size item? (array (v.toList.map f)) = some v := by
  unfold vector?
  rw [list?_map fun a ha => h a (Vector.mem_toList_iff.1 ha)]
  exact dif_pos v.length_toList

/-! ## Records -/

/-- The fields stand under their names. -/
theorem named?_fields (fields : List (String × Json)) :
    named? (fields.map fun (name, value) => (Text.ofString name, value)) = some fields := by
  unfold named?
  rw [mapM_map_some (k := id) ?_, List.map_id]
  rintro ⟨name, value⟩ -
  simp only [Text.toString?_ofString]
  rfl

theorem filter_name_length {fields : List (String × Json)} (h : (fields.map (·.1)).Nodup) (name : String) :
    (fields.filter (·.1 = name)).length ≤ 1 := by
  have hcount := List.nodup_iff_count.1 h name
  rw [List.count_eq_countP, List.countP_map, List.countP_eq_length_filter] at hcount
  exact hcount

/-- **The fields of a record are found by name**, each at most once. -/
theorem record?_ofFields {fields : List (String × Json)} (h : (fields.map (·.1)).Nodup) (names : List String)
    (omissible : Nat) :
    (ofFields fields).record? names omissible =
      some (names.map fun name => (fields.find? (·.1 = name)).map (·.2)) := by
  have hvalues (name : String) : ((fields.filter (·.1 = name)).map (·.2)).head? =
      (fields.find? (·.1 = name)).map (·.2) := by
    rw [List.head?_map, List.head?_filter]
  have hsingle : (names.map fun name => (fields.filter (·.1 = name)).map (·.2)).any (1 < ·.length) = false := by
    rw [List.any_eq_false]
    intro values hv
    obtain ⟨name, -, rfl⟩ := List.mem_map.1 hv
    have := filter_name_length h name
    rw [List.length_map, decide_eq_true_eq]
    omega
  unfold record? ofFields
  dsimp only
  rw [named?_fields]
  show (if _ then _ else some (List.map List.head? _)) = _
  rw [hsingle, if_neg (by decide), List.map_map]
  exact congrArg some (List.map_congr_left fun name _ => hvalues name)

theorem optional?_elim {α : Type} {value? : Json → Option α} {f : α → Json} {o : Option α}
    (h : ∀ a ∈ o, value? (f a) = some a ∧ f a ≠ null) : optional? value? (some (o.elim null f)) = some o := by
  cases o with
  | none => rfl
  | some a =>
    obtain ⟨hread, hnull⟩ := h a rfl
    have hread : some <$> value? (f a) = some (some a) := by rw [hread]; rfl
    rw [Option.elim_some]
    unfold optional?
    split
    · next h => nomatch h
    · next h => exact absurd (Option.some.inj h) hnull
    · next h => rw [← Option.some.inj h, hread]

/-! ## Tagged records -/

theorem fitsDouble_of_lt {n : Nat} (h : n < UInt64.size) : fitsDouble n 0 = true := by
  have hlength : (Nat.toDigits 10 n).length ≤ 20 :=
    (Nat.length_toDigits_le_iff (by decide) (by decide)).2 (Nat.lt_trans h (by decide))
  unfold fitsDouble
  dsimp only
  rw [if_pos (.inr (by omega))]

/-- **A tagged record gives its variant and its other fields.** -/
theorem tagged?_ofFields {tag name : String} {fields : List (String × Json)}
    (hh : ∀ field ∈ fields, holdable holdableDepth field.2 = true) (ht : ∀ field ∈ fields, field.1 ≠ tag) :
    (ofFields ((tag, ofString name) :: fields)).tagged? tag = some (name, ofFields fields) := by
  have hall : ((tag, ofString name) :: fields).all (fun field => holdable holdableDepth field.2) = true := by
    rw [List.all_cons, List.all_eq_true.2 hh]
    simp only [ofString, holdable, Text.toString?_ofString, Option.isSome_some, Bool.and_self]
  have htags : ((tag, ofString name) :: fields).filter (·.1 = tag) = [(tag, ofString name)] := by
    rw [List.filter_cons_of_pos (by simp), List.filter_eq_nil_iff.2 fun field hf => by simpa using ht field hf]
  have hothers : (((tag, ofString name) :: fields).map fun (name, value) => (Text.ofString name, value)).filter
      (·.1 ≠ Text.ofString tag) = fields.map fun (name, value) => (Text.ofString name, value) := by
    rw [List.map_cons, List.filter_cons_of_neg (by simp), List.filter_eq_self]
    intro member hm
    obtain ⟨field, hf, rfl⟩ := List.mem_map.1 hm
    exact decide_eq_true fun he => ht field hf (Text.ofString_inj.1 he)
  unfold tagged? ofFields
  dsimp only
  rw [named?_fields]
  show (if (((tag, ofString name) :: fields).all fun field => holdable holdableDepth field.2) = true then _ else _) = _
  rw [if_pos hall, htags, hothers]
  show _ <$> (Text.ofString name).toString? = _
  rw [Text.toString?_ofString]
  rfl

end Json
end NesConsole
