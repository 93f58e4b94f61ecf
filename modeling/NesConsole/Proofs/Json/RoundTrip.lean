import Mathlib.Data.List.TakeDrop
import NesConsole.Json.Printer
import NesConsole.Json.Reader
/-!
# Reading what was written

Every plain document is read back from its text, in any layout that separates tokens by blanks (`Json.read?_write`).
Plain documents are those that have one spelling: their strings and keys are texts and their numbers integers.

Each scanner is shown to read what the writer put in front of a rest, and to leave that rest.
-/
namespace NesConsole

/-! ## Blanks -/

namespace Json

def Blank (cs : List Char) : Prop := ∀ c ∈ cs, isBlank c = true

theorem skipBlanks_append {blanks : List Char} (h : Blank blanks) (cs : List Char) :
    skipBlanks (blanks ++ cs) = skipBlanks cs :=
  List.dropWhile_append_of_pos h

theorem skipBlanks_cons {c : Char} (h : isBlank c = false) (cs : List Char) : skipBlanks (c :: cs) = c :: cs :=
  List.dropWhile_cons_of_neg (by rw [h]; decide)

end Json

/-- Nothing but blanks stands between the tokens of a document. -/
structure JsonLayout.Blank (layout : JsonLayout) : Prop where
  lineStart : ∀ depth, Json.Blank (layout.lineStart depth)
  colon : ∃ blanks, layout.colon = ':' :: blanks ∧ Json.Blank blanks

theorem JsonLayout.blank_compact : compact.Blank := ⟨fun _ => nofun, [], rfl, nofun⟩

theorem JsonLayout.blank_pretty : pretty.Blank where
  lineStart depth c hc := by
    rcases List.mem_cons.1 hc with rfl | hc
    · rfl
    · rw [List.eq_of_mem_replicate hc]
      rfl
  colon := ⟨[' '], rfl, fun c hc => by rw [List.mem_singleton.1 hc]; rfl⟩

/-! ## Digits -/

theorem decimalDigit_isDigit : ∀ n : Fin 10, (decimalDigit n).isDigit = true := by decide

theorem decimalDigit_value : ∀ n : Fin 10, (decimalDigit n).toNat - '0'.toNat = n := by decide

theorem decimalDigit_ne_zero : ∀ n : Fin 10, 0 < n.val → decimalDigit n ≠ '0' := by decide

theorem natDigits_of_lt {n : Nat} (h : n < 10) : natDigits n = [decimalDigit n] := by
  rw [natDigits, if_pos h]

theorem natDigits_of_le {n : Nat} (h : 10 ≤ n) : natDigits n = natDigits (n / 10) ++ [decimalDigit (n % 10)] := by
  rw [natDigits, if_neg (by omega)]

theorem natDigits_isDigit (n : Nat) : ∀ c ∈ natDigits n, c.isDigit = true := by
  induction n using Nat.strongRecOn with
  | ind n ih =>
    intro c hc
    by_cases h : n < 10
    · rw [natDigits_of_lt h, List.mem_singleton] at hc
      exact hc ▸ decimalDigit_isDigit ⟨n, h⟩
    · rw [natDigits_of_le (by omega), List.mem_append, List.mem_singleton] at hc
      rcases hc with hc | rfl
      · exact ih (n / 10) (by omega) c hc
      · exact decimalDigit_isDigit ⟨n % 10, by omega⟩

theorem natDigits_ne_nil (n : Nat) : natDigits n ≠ [] := by
  rw [natDigits]
  split <;> simp

theorem natDigits_append_head (n : Nat) (rest : List Char) :
    ∃ c tail, natDigits n ++ rest = c :: tail ∧ c.isDigit = true := by
  cases h : natDigits n with
  | nil => exact absurd h (natDigits_ne_nil n)
  | cons c digits => exact ⟨c, digits ++ rest, rfl, natDigits_isDigit n c (h ▸ List.mem_cons_self)⟩

namespace Json

/-- **The digits written for a number are its digits.** -/
theorem digitValue_natDigits (n : Nat) : digitValue (natDigits n) = n := by
  induction n using Nat.strongRecOn with
  | ind n ih =>
    by_cases h : n < 10
    · rw [natDigits_of_lt h]
      exact (Nat.zero_add _).trans (decimalDigit_value ⟨n, h⟩)
    · rw [natDigits_of_le (by omega), digitValue, List.foldl_append, ← digitValue, ih (n / 10) (by omega)]
      show n / 10 * 10 + ((decimalDigit (n % 10)).toNat - '0'.toNat) = n
      rw [decimalDigit_value ⟨n % 10, by omega⟩]
      show n / 10 * 10 + n % 10 = n
      omega

/-- No zero leads the digits of a positive number. -/
theorem natDigits_head {n : Nat} (hn : 0 < n) : (natDigits n).head? ≠ some '0' := by
  induction n using Nat.strongRecOn with
  | ind n ih =>
    by_cases h : n < 10
    · rw [natDigits_of_lt h]
      exact fun hz => decimalDigit_ne_zero ⟨n, h⟩ hn (Option.some.inj hz)
    · rw [natDigits_of_le (by omega), List.head?_append, List.head?_eq_some_head (natDigits_ne_nil _), Option.some_or,
        ← List.head?_eq_some_head]
      exact ih (n / 10) (by omega) (by omega)

/-! ## Numbers -/

/-- A number ends before `rest`: nothing there continues it. -/
def NumberEnds (rest : List Char) : Prop :=
  ∀ c ∈ rest.head?, c.isDigit = false ∧ c ≠ '.' ∧ c ≠ 'e' ∧ c ≠ 'E'

theorem scanDigits_append {digits rest : List Char} (hd : ∀ c ∈ digits, c.isDigit = true) (hne : digits ≠ [])
    (hr : NumberEnds rest) : scanDigits (digits ++ rest) = some (digits, rest) := by
  have htake : rest.takeWhile Char.isDigit = [] := by
    cases rest with
    | nil => rfl
    | cons c _ => rw [List.takeWhile_cons_of_neg (by rw [(hr c rfl).1]; decide)]
  have hdrop : rest.dropWhile Char.isDigit = rest := by
    cases rest with
    | nil => rfl
    | cons c _ => rw [List.dropWhile_cons_of_neg (by rw [(hr c rfl).1]; decide)]
  unfold scanDigits
  rw [List.span_eq_takeWhile_dropWhile, List.takeWhile_append_of_pos hd, List.dropWhile_append_of_pos hd, htake, hdrop,
    List.append_nil]
  simp only [List.isEmpty_iff, hne, if_false]

theorem scanWhole_natDigits (n : Nat) {rest : List Char} (hr : NumberEnds rest) :
    scanWhole (natDigits n ++ rest) = some (natDigits n, rest) := by
  unfold scanWhole
  rw [scanDigits_append (natDigits_isDigit n) (natDigits_ne_nil n) hr]
  show (if (natDigits n).head? = some '0' ∧ 1 < (natDigits n).length then none else _) = _
  rcases Nat.eq_zero_or_pos n with rfl | hn
  · rw [natDigits_of_lt (by decide)]
    rfl
  · rw [if_neg fun h => natDigits_head hn h.1]

theorem scanFraction_ends {rest : List Char} (hr : NumberEnds rest) : scanFraction rest = some ([], rest) := by
  unfold scanFraction
  split
  · exact absurd rfl (hr '.' rfl).2.1
  · rfl

theorem scanExponent_ends {rest : List Char} (hr : NumberEnds rest) : scanExponent rest = some (none, rest) := by
  cases rest with
  | nil => rfl
  | cons c rest =>
    obtain ⟨-, -, hlower, hupper⟩ := hr c rfl
    simp only [scanExponent, hlower, hupper, or_self, if_false]

/-- The digits of a number, after its sign. -/
theorem scanNumber_unsigned (negative : Bool) (n : Nat) {rest : List Char} (hr : NumberEnds rest) :
    (do
      let (whole, cs) ← scanWhole (natDigits n ++ rest)
      let (fraction, cs) ← scanFraction cs
      let (exponent, cs) ← scanExponent cs
      return (numberOf negative whole fraction exponent, cs)) = some (numberOf negative (natDigits n) [] none, rest) := by
  rw [scanWhole_natDigits n hr]
  show (scanFraction rest >>= _) = _
  rw [scanFraction_ends hr]
  show (scanExponent rest >>= _) = _
  rw [scanExponent_ends hr]
  rfl

/-- **An integer is read back from its digits.** -/
theorem scanNumber_intDigits (i : Int) {rest : List Char} (hr : NumberEnds rest) :
    scanNumber (intDigits i ++ rest) = some (integer i, rest) := by
  cases i with
  | ofNat n =>
    obtain ⟨c, tail, hhead, hdigit⟩ := natDigits_append_head n rest
    have hsign : ∀ cs, natDigits n ++ rest ≠ '-' :: cs := fun cs hcs => by
      rw [hhead] at hcs
      cases hcs
      exact absurd hdigit (by decide)
    have hvalue : numberOf false (natDigits n) [] none = integer (.ofNat n) := by
      unfold numberOf
      rw [digitValue_natDigits]
      rfl
    unfold scanNumber intDigits
    split
    next heq =>
      split at heq
      · next hcs => exact absurd hcs (hsign _)
      · cases heq
        exact (scanNumber_unsigned false n hr).trans (by rw [hvalue])
  | negSucc n =>
    have hvalue : numberOf true (natDigits (n + 1)) [] none = integer (.negSucc n) := by
      unfold numberOf
      rw [digitValue_natDigits]
      rfl
    exact (scanNumber_unsigned true (n + 1) hr).trans (by rw [hvalue])

/-! ## Strings -/

theorem hexValue?_digit :
    ∀ n : Fin 16, hexValue? (if n.val < 10 then Char.ofNat (48 + n) else Char.ofNat (87 + n)) = some n.val := by decide

theorem codeUnit?_escapeCode {code : Nat} (h : code < 0x10000) (rest : List Char) :
    ∃ a b c d, TextUnit.escapeCode code ++ rest = '\\' :: 'u' :: a :: b :: c :: d :: rest ∧
      codeUnit? a b c d = some code := by
  refine ⟨_, _, _, _, rfl, ?_⟩
  unfold codeUnit?
  rw [hexValue?_digit ⟨code / 0x1000 % 16, by omega⟩, hexValue?_digit ⟨code / 0x100 % 16, by omega⟩,
    hexValue?_digit ⟨code / 0x10 % 16, by omega⟩, hexValue?_digit ⟨code % 16, by omega⟩]
  show some (((code / 0x1000 % 16 * 16 + code / 0x100 % 16) * 16 + code / 0x10 % 16) * 16 + code % 16) = some code
  congr 1
  omega

/-- A code unit that opens no pair is read by itself. -/
theorem scanString_codeUnit {a b c d : Char} {unit : Nat} (h : codeUnit? a b c d = some unit)
    (hu : isHighSurrogate unit = false) (read : Text) (rest : List Char) :
    scanString read ('\\' :: 'u' :: a :: b :: c :: d :: rest) = scanString (loneUnit unit :: read) rest := by
  rw [scanString.eq_def]
  split
  · next heq => cases heq
  · next heq => cases heq
  · next heq =>
    cases heq
    rw [h]
    split
    · next hs => cases hs
    · next hs =>
      cases hs
      split
      · next hlow => simp only [scanString, hlow]
      · rw [hu]; rfl
    · next hs _ => cases hs; rfl
  · next hescape heq => cases heq; exact absurd rfl (hescape a b c d rest rfl)
  · next hescape _ heq => cases heq; exact absurd rfl (hescape a b c d rest rfl)

/-- **A character is read back from its escape**, whatever follows. -/
theorem scanString_escaped (c : Char) (read : Text) (rest : List Char) :
    scanString read ((TextUnit.char c).escaped ++ rest) = scanString (.char c :: read) rest := by
  unfold TextUnit.escaped
  split
  · next h => cases h
  · next h => cases h; simp [scanString, simpleEscape?]
  · next h => cases h; simp [scanString, simpleEscape?]
  · next h => cases h; simp [scanString, simpleEscape?]
  · next h => cases h; simp [scanString, simpleEscape?]
  · next h => cases h; simp [scanString, simpleEscape?]
  · next h => cases h; simp [scanString, simpleEscape?]
  · next h => cases h; simp [scanString, simpleEscape?]
  · next hquote hbackslash _ _ _ _ _ h =>
    cases h
    split
    · next hc =>
      obtain ⟨_, _, _, _, hcode, hunit⟩ := codeUnit?_escapeCode (show c.toNat < 0x10000 by omega) rest
      have hhigh : isHighSurrogate c.toNat = false := by
        simp only [isHighSurrogate, Bool.and_eq_false_iff, decide_eq_false_iff_not]
        omega
      have hlow : isLowSurrogate c.toNat = false := by
        simp only [isLowSurrogate, Bool.and_eq_false_iff, decide_eq_false_iff_not]
        omega
      rw [hcode, scanString_codeUnit hunit hhigh, loneUnit, hhigh, hlow]
      simp only [Bool.or_self, Bool.false_eq_true, if_false, Char.ofNat_toNat]
    · next hc =>
      show scanString read (c :: rest) = _
      rw [scanString.eq_def]
      split
      · next heq => cases heq
      · next heq => cases heq; exact absurd rfl hquote
      · next heq => cases heq; exact absurd rfl hbackslash
      · next heq => cases heq; exact absurd rfl hbackslash
      · next heq => cases heq; rw [if_neg hc]

/-- **A text is read back from its literal.** -/
theorem scanString_write (s : String) (read : Text) (rest : List Char) :
    scanString read ((Text.ofString s).foldr (fun unit rest => unit.escaped ++ rest) ('"' :: rest)) =
      some (read.reverse ++ Text.ofString s, rest) := by
  unfold Text.ofString
  induction s.toList generalizing read with
  | nil => simp [scanString]
  | cons c cs ih =>
    rw [List.map_cons, List.foldr_cons, scanString_escaped, ih]
    simp

end Json

theorem Text.length_write (text : Text) (rest : List Char) : rest.length < (text.write rest).length := by
  have hfold : rest.length < (text.foldr (fun unit rest => unit.escaped ++ rest) ('"' :: rest)).length := by
    induction text with
    | nil => exact Nat.lt_succ_self _
    | cons unit text ih =>
      rw [List.foldr_cons, List.length_append]
      omega
  exact Nat.lt_succ_of_lt hfold

namespace Json

/-! ## Documents -/

/-- The documents with one spelling: strings and keys are texts, and numbers integers. -/
inductive Plain : Json → Prop where
  | null : Plain null
  | bool (value : Bool) : Plain (bool value)
  | integer (value : Int) : Plain (integer value)
  | string (s : String) : Plain (ofString s)
  | array {items : List Json} (h : ∀ item ∈ items, Plain item) : Plain (array items)
  | object {fields : List (String × Json)} (h : ∀ field ∈ fields, Plain field.2) : Plain (ofFields fields)

/-- What is written for a document begins like a value, is not empty, and is read back.  Of fuel two steps are enough
for each character, less one. -/
structure ReadsBack (layout : JsonLayout) (json : Json) : Prop where
  head : ∀ depth rest, ∃ c tail, json.write layout depth rest = c :: tail ∧ isBlank c = false ∧ c ≠ ']'
  longer : ∀ depth rest, rest.length < (json.write layout depth rest).length
  scan : ∀ depth fuel rest, 2 * (json.write layout depth rest).length ≤ fuel + 2 + 2 * rest.length → NumberEnds rest →
    scanValue (fuel + 1) (json.write layout depth rest) = some (json, rest)

theorem scanValue_blanks {blanks : List Char} (h : Blank blanks) (fuel : Nat) (cs : List Char) :
    scanValue fuel (blanks ++ cs) = scanValue fuel cs := by
  cases fuel with
  | zero => rfl
  | succ fuel => simp only [scanValue, skipBlanks_append h]

theorem isBlank_of_isDigit {c : Char} (h : c.isDigit = true) : isBlank c = false := by
  rw [Bool.eq_false_iff]
  intro hb
  simp only [isBlank, Bool.or_eq_true, beq_iff_eq] at hb
  rcases hb with ((rfl | rfl) | rfl) | rfl <;> exact absurd h (by decide)

/-- What starts like a number is read as one. -/
theorem scanValue_number {c : Char} (h : c.isDigit = true ∨ c = '-') (fuel : Nat) (tail : List Char) :
    scanValue (fuel + 1) (c :: tail) = scanNumber (c :: tail) := by
  have hblank : isBlank c = false := by
    rcases h with h | rfl
    · exact isBlank_of_isDigit h
    · rfl
  unfold scanValue
  rw [skipBlanks_cons hblank]
  split
  · next heq => cases heq; exact absurd h (by decide)
  · next heq => cases heq; exact absurd h (by decide)
  · next heq => cases heq; exact absurd h (by decide)
  · next heq => cases heq; exact absurd h (by decide)
  · next heq => cases heq; exact absurd h (by decide)
  · next heq => cases heq; exact absurd h (by decide)
  · rfl

theorem numberEnds_nil : NumberEnds [] := nofun

theorem numberEnds_cons {c : Char} (h : c.isDigit = false ∧ c ≠ '.' ∧ c ≠ 'e' ∧ c ≠ 'E') (rest : List Char) :
    NumberEnds (c :: rest) := by
  rintro _ ⟨⟩
  exact h

theorem numberEnds_blanks {blanks rest : List Char} (h : Blank blanks) (hr : NumberEnds rest) :
    NumberEnds (blanks ++ rest) := by
  cases blanks with
  | nil => exact hr
  | cons c blanks =>
    have hc := h c List.mem_cons_self
    simp only [isBlank, Bool.or_eq_true, beq_iff_eq] at hc
    rcases hc with ((rfl | rfl) | rfl) | rfl <;> exact numberEnds_cons (by decide) _

theorem intDigits_append_head (i : Int) (rest : List Char) :
    ∃ c tail, intDigits i ++ rest = c :: tail ∧ (c.isDigit = true ∨ c = '-') := by
  cases i with
  | ofNat n =>
    obtain ⟨c, tail, hhead, hdigit⟩ := natDigits_append_head n rest
    exact ⟨c, tail, hhead, .inl hdigit⟩
  | negSucc n => exact ⟨'-', _, rfl, .inr rfl⟩

namespace ReadsBack

variable {layout : JsonLayout}

theorem null : ReadsBack layout null where
  head _ _ := ⟨_, _, rfl, rfl, by decide⟩
  longer _ rest := by simp only [write, List.length_cons]; omega
  scan _ _ _ _ _ := rfl

theorem bool (value : Bool) : ReadsBack layout (bool value) := by
  cases value with
  | true | false =>
    refine ⟨fun _ _ => ⟨_, _, rfl, rfl, by decide⟩, fun _ rest => ?_, fun _ _ _ _ _ => rfl⟩
    simp only [write, List.length_cons]
    omega

theorem integer (i : Int) : ReadsBack layout (integer i) where
  head _ rest := by
    obtain ⟨c, tail, hhead, hc⟩ := intDigits_append_head i rest
    refine ⟨c, tail, hhead, ?_, ?_⟩
    · rcases hc with hc | rfl
      · exact isBlank_of_isDigit hc
      · rfl
    · rintro rfl
      exact absurd hc (by decide)
  longer _ rest := by
    obtain ⟨c, tail, hhead, -⟩ := intDigits_append_head i []
    rw [List.append_nil] at hhead
    simp only [write, hhead, List.length_append, List.length_cons]
    omega
  scan _ fuel rest _ hr := by
    obtain ⟨c, tail, hhead, hc⟩ := intDigits_append_head i rest
    have hscan := scanNumber_intDigits i hr
    rw [hhead] at hscan
    rw [write, hhead, scanValue_number hc, hscan]

theorem string (s : String) : ReadsBack layout (ofString s) where
  head _ _ := ⟨_, _, rfl, rfl, by decide⟩
  longer _ rest := (Text.ofString s).length_write rest
  scan _ fuel rest _ _ := by
    simp only [ofString, write, Text.write]
    unfold scanValue
    rw [skipBlanks_cons rfl]
    simp only [scanString_write]
    rfl

end ReadsBack

/-! ### Arrays -/

section Items

variable {layout : JsonLayout} {items : List Json}

theorem numberEnds_writeItems (hl : layout.Blank) (depth : Nat) (items : List Json) (rest : List Char) :
    NumberEnds (writeItems layout depth false items rest) := by
  cases items with
  | nil => exact numberEnds_blanks (hl.lineStart depth) (numberEnds_cons (by decide) rest)
  | cons => exact numberEnds_cons (by decide) _

theorem length_writeItems (h : ∀ item ∈ items, ReadsBack layout item) (depth : Nat) (first : Bool) (rest : List Char) :
    rest.length < (writeItems layout depth first items rest).length := by
  induction items generalizing first with
  | nil =>
    simp only [writeItems, List.length_append, List.length_cons]
    omega
  | cons item items ih =>
    have hitem := (h item List.mem_cons_self).longer (depth + 1) (writeItems layout depth false items rest)
    have hitems := ih (fun item hi => h item (List.mem_cons_of_mem _ hi)) false
    simp only [writeItems, List.length_append]
    omega

theorem scanItems_blanks {blanks : List Char} (h : Blank blanks) (fuel : Nat) (read : List Json) (cs : List Char) :
    scanItems fuel read (blanks ++ cs) = scanItems fuel read cs := by
  cases fuel with
  | zero => rfl
  | succ fuel => simp only [scanItems, scanValue_blanks h]

/-- Items are read back one after the other, up to the bracket. -/
theorem scanItems_write (hl : layout.Blank) (h : ∀ item ∈ items, ReadsBack layout item) {item : Json}
    (hi : ReadsBack layout item) (depth fuel : Nat) (read : List Json) (rest : List Char)
    (hf : 2 * (item.write layout (depth + 1) (writeItems layout depth false items rest)).length ≤
      fuel + 2 + 2 * rest.length) :
    scanItems (fuel + 2) read (item.write layout (depth + 1) (writeItems layout depth false items rest)) =
      some (array (read.reverse ++ item :: items), rest) := by
  induction items generalizing item fuel read with
  | nil =>
    have hscan := hi.scan (depth + 1) fuel (writeItems layout depth false [] rest)
      (by have := length_writeItems h depth false rest; omega) (numberEnds_writeItems hl depth [] rest)
    unfold scanItems
    rw [hscan]
    simp only [writeItems, Bool.false_eq_true, if_false, skipBlanks_append (hl.lineStart depth),
      skipBlanks_cons (show isBlank ']' = false from rfl), List.reverse_cons]
  | cons next items ih =>
    have hnext := h next List.mem_cons_self
    have hitems := fun item hi => h item (List.mem_cons_of_mem next hi)
    let tail := next.write layout (depth + 1) (writeItems layout depth false items rest)
    have hwritten : writeItems layout depth false (next :: items) rest =
        ',' :: (layout.lineStart (depth + 1) ++ tail) := rfl
    have hlength : (writeItems layout depth false (next :: items) rest).length =
        1 + (layout.lineStart (depth + 1)).length + tail.length := by
      rw [hwritten, List.length_cons, List.length_append]
      omega
    have hlonger := hi.longer (depth + 1) (writeItems layout depth false (next :: items) rest)
    have hrest : rest.length < tail.length :=
      Nat.lt_trans (length_writeItems hitems depth false rest) (hnext.longer (depth + 1) _)
    have hscan := hi.scan (depth + 1) fuel (writeItems layout depth false (next :: items) rest) (by omega)
      (numberEnds_writeItems hl depth _ rest)
    unfold scanItems
    rw [hscan]
    obtain ⟨fuel, rfl⟩ : ∃ n, fuel = n + 1 := ⟨fuel - 1, by omega⟩
    have hnextScan := ih hitems hnext fuel (item :: read) (show 2 * tail.length ≤ _ by omega)
    simp only [hwritten, skipBlanks_cons (show isBlank ',' = false from rfl),
      scanItems_blanks (hl.lineStart (depth + 1))]
    rw [hnextScan, List.reverse_cons, List.append_assoc]
    rfl

/-- **An array is read back** if its items are. -/
theorem ReadsBack.array (hl : layout.Blank) (h : ∀ item ∈ items, ReadsBack layout item) :
    ReadsBack layout (array items) where
  head _ _ := ⟨_, _, rfl, rfl, by decide⟩
  longer depth rest := Nat.lt_succ_of_lt (length_writeItems h depth true rest)
  scan depth fuel rest hf _ := by
    cases items with
    | nil => rfl
    | cons item items =>
      have hi := h item List.mem_cons_self
      have hitems := fun other ho => h other (List.mem_cons_of_mem item ho)
      let tail := item.write layout (depth + 1) (writeItems layout depth false items rest)
      have hwritten : (Json.array (item :: items)).write layout depth rest =
        '[' :: (layout.lineStart (depth + 1) ++ tail) := rfl
      have hrest : rest.length + 1 < tail.length :=
        Nat.lt_of_le_of_lt (length_writeItems hitems depth false rest) (hi.longer (depth + 1) _)
      rw [hwritten, List.length_cons, List.length_append] at hf
      obtain ⟨fuel, rfl⟩ : ∃ n, fuel = n + 2 := ⟨fuel - 2, by omega⟩
      have hscan := scanItems_write hl hitems hi depth fuel [] rest (show 2 * tail.length ≤ _ by omega)
      obtain ⟨c, cs, hhead, hblank, hbracket⟩ := hi.head (depth + 1) (writeItems layout depth false items rest)
      rw [hwritten]
      unfold scanValue
      simp only [skipBlanks_cons (show isBlank '[' = false from rfl), skipBlanks_append (hl.lineStart (depth + 1))]
      rw [hhead] at hscan
      rw [show tail = c :: cs from hhead, skipBlanks_cons hblank]
      split
      · next heq => cases heq; exact absurd rfl hbracket
      · exact hscan

end Items

/-! ### Objects -/

section Members

variable {layout : JsonLayout} {fields : List (String × Json)}

/-- Fields as members. -/
def membersOf (fields : List (String × Json)) : List (Text × Json) :=
  fields.map fun (name, value) => (Text.ofString name, value)

theorem numberEnds_writeMembers (hl : layout.Blank) (depth : Nat) (members : List (Text × Json)) (rest : List Char) :
    NumberEnds (writeMembers layout depth false members rest) := by
  cases members with
  | nil => exact numberEnds_blanks (hl.lineStart depth) (numberEnds_cons (by decide) rest)
  | cons => exact numberEnds_cons (by decide) _

theorem length_writeMembers (h : ∀ field ∈ fields, ReadsBack layout field.2) (depth : Nat) (first : Bool)
    (rest : List Char) : rest.length < (writeMembers layout depth first (membersOf fields) rest).length := by
  induction fields generalizing first with
  | nil =>
    simp only [membersOf, List.map_nil, writeMembers, List.length_append, List.length_cons]
    omega
  | cons field fields ih =>
    have hvalue := (h field List.mem_cons_self).longer (depth + 1)
      (writeMembers layout depth false (membersOf fields) rest)
    have hfields := ih (fun field hi => h field (List.mem_cons_of_mem _ hi)) false
    have hkey := (Text.ofString field.1).length_write
      (layout.colon ++ field.2.write layout (depth + 1) (writeMembers layout depth false (membersOf fields) rest))
    simp only [membersOf, List.map_cons, writeMembers, List.length_append] at hvalue hfields hkey ⊢
    omega

theorem scanMembers_blanks {blanks : List Char} (h : Blank blanks) (fuel : Nat) (read : List (Text × Json))
    (cs : List Char) : scanMembers fuel read (blanks ++ cs) = scanMembers fuel read cs := by
  cases fuel with
  | zero => rfl
  | succ fuel => simp only [scanMembers, skipBlanks_append h]

/-- A key and its value are read, and what follows decides whether there is another. -/
theorem scanMembers_key (hl : layout.Blank) (name : String) {fuel : Nat} (read : List (Text × Json)) {cs : List Char}
    {value : Json} {after rest : List Char} (hscan : scanValue fuel cs = some (value, after)) :
    (skipBlanks after = ',' :: rest →
      scanMembers (fuel + 1) read ((Text.ofString name).write (layout.colon ++ cs)) =
        scanMembers fuel ((Text.ofString name, value) :: read) rest) ∧
    (skipBlanks after = '}' :: rest →
      scanMembers (fuel + 1) read ((Text.ofString name).write (layout.colon ++ cs)) =
        some (object ((Text.ofString name, value) :: read).reverse, rest)) := by
  obtain ⟨blanks, hcolon, hblanks⟩ := hl.colon
  refine ⟨fun hafter => ?_, fun hafter => ?_⟩ <;>
    simp only [scanMembers, Text.write, skipBlanks_cons (show isBlank '"' = false from rfl), scanString_write, hcolon,
      List.cons_append, skipBlanks_cons (show isBlank ':' = false from rfl), scanValue_blanks hblanks, hscan, hafter,
      List.reverse_nil, List.nil_append]

/-- Members are read back one after the other, up to the brace. -/
theorem scanMembers_write (hl : layout.Blank) (h : ∀ field ∈ fields, ReadsBack layout field.2) (name : String)
    {value : Json} (hv : ReadsBack layout value) (depth fuel : Nat) (read : List (Text × Json)) (rest : List Char)
    (hf : 2 * (value.write layout (depth + 1) (writeMembers layout depth false (membersOf fields) rest)).length ≤
      fuel + 2 + 2 * rest.length) :
    scanMembers (fuel + 2) read ((Text.ofString name).write (layout.colon ++
        value.write layout (depth + 1) (writeMembers layout depth false (membersOf fields) rest))) =
      some (object (read.reverse ++ (Text.ofString name, value) :: membersOf fields), rest) := by
  induction fields generalizing name value fuel read with
  | nil =>
    have hscan := hv.scan (depth + 1) fuel (writeMembers layout depth false (membersOf []) rest)
      (by have := length_writeMembers h depth false rest; omega) (numberEnds_writeMembers hl depth _ rest)
    have hafter : skipBlanks (writeMembers layout depth false (membersOf []) rest) = '}' :: rest :=
      (skipBlanks_append (hl.lineStart depth) _).trans (skipBlanks_cons rfl rest)
    rw [(scanMembers_key hl name read hscan).2 hafter, List.reverse_cons]
    rfl
  | cons next fields ih =>
    have hnext := h next List.mem_cons_self
    have hfields := fun field hi => h field (List.mem_cons_of_mem next hi)
    let tail := next.2.write layout (depth + 1) (writeMembers layout depth false (membersOf fields) rest)
    let keyed := (Text.ofString next.1).write (layout.colon ++ tail)
    have hwritten : writeMembers layout depth false (membersOf (next :: fields)) rest =
        ',' :: (layout.lineStart (depth + 1) ++ keyed) := rfl
    have hkeyed : tail.length < keyed.length := by
      have := (Text.ofString next.1).length_write (layout.colon ++ tail)
      rw [List.length_append] at this
      exact Nat.lt_of_le_of_lt (Nat.le_add_left _ _) this
    have hlength : (writeMembers layout depth false (membersOf (next :: fields)) rest).length =
        1 + (layout.lineStart (depth + 1)).length + keyed.length := by
      rw [hwritten, List.length_cons, List.length_append]
      omega
    have hlonger := hv.longer (depth + 1) (writeMembers layout depth false (membersOf (next :: fields)) rest)
    have hrest : rest.length < tail.length :=
      Nat.lt_trans (length_writeMembers hfields depth false rest) (hnext.longer (depth + 1) _)
    have hscan := hv.scan (depth + 1) fuel (writeMembers layout depth false (membersOf (next :: fields)) rest)
      (by omega) (numberEnds_writeMembers hl depth _ rest)
    have hafter : skipBlanks (writeMembers layout depth false (membersOf (next :: fields)) rest) =
        ',' :: (layout.lineStart (depth + 1) ++ keyed) := skipBlanks_cons rfl _
    rw [(scanMembers_key hl name read hscan).1 hafter, scanMembers_blanks (hl.lineStart (depth + 1))]
    obtain ⟨fuel, rfl⟩ : ∃ n, fuel = n + 1 := ⟨fuel - 1, by omega⟩
    have hnextScan := ih hfields next.1 hnext fuel ((Text.ofString name, value) :: read)
      (show 2 * tail.length ≤ _ by omega)
    rw [hnextScan, List.reverse_cons, List.append_assoc]
    rfl

/-- **An object is read back** if its fields are. -/
theorem ReadsBack.object (hl : layout.Blank) (h : ∀ field ∈ fields, ReadsBack layout field.2) :
    ReadsBack layout (ofFields fields) where
  head _ _ := ⟨_, _, rfl, rfl, by decide⟩
  longer depth rest := Nat.lt_succ_of_lt (length_writeMembers h depth true rest)
  scan depth fuel rest hf _ := by
    cases fields with
    | nil => rfl
    | cons field fields =>
      have hfield := h field List.mem_cons_self
      have hfields := fun other ho => h other (List.mem_cons_of_mem field ho)
      let tail := field.2.write layout (depth + 1) (writeMembers layout depth false (membersOf fields) rest)
      let keyed := (Text.ofString field.1).write (layout.colon ++ tail)
      have hwritten : (ofFields (field :: fields)).write layout depth rest =
        '{' :: (layout.lineStart (depth + 1) ++ keyed) := rfl
      have hkeyed : tail.length < keyed.length := by
        have := (Text.ofString field.1).length_write (layout.colon ++ tail)
        rw [List.length_append] at this
        exact Nat.lt_of_le_of_lt (Nat.le_add_left _ _) this
      have hrest : rest.length + 1 < tail.length :=
        Nat.lt_of_le_of_lt (length_writeMembers hfields depth false rest) (hfield.longer (depth + 1) _)
      rw [hwritten, List.length_cons, List.length_append] at hf
      obtain ⟨fuel, rfl⟩ : ∃ n, fuel = n + 2 := ⟨fuel - 2, by omega⟩
      have hscan := scanMembers_write hl hfields field.1 hfield depth fuel [] rest
        (show 2 * tail.length ≤ _ by omega)
      rw [hwritten]
      unfold scanValue
      simp only [skipBlanks_cons (show isBlank '{' = false from rfl), skipBlanks_append (hl.lineStart (depth + 1))]
      have hkey : skipBlanks keyed = keyed := skipBlanks_cons rfl _
      rw [hkey]
      exact hscan

end Members

/-- **Plain documents are read back**, in any layout whose tokens are separated by blanks. -/
theorem Plain.readsBack {layout : JsonLayout} (hl : layout.Blank) {json : Json} (h : json.Plain) :
    ReadsBack layout json := by
  induction h with
  | null => exact .null
  | bool value => exact .bool value
  | integer value => exact .integer value
  | string s => exact .string s
  | array _ ih => exact .array hl ih
  | object _ ih => exact .object hl ih

/-- **Reading undoes writing**: a plain document is the document of its text. -/
theorem read?_write {layout : JsonLayout} (hl : layout.Blank) {json : Json} (h : json.Plain) :
    read? (String.ofList (json.write layout 0 [])) = some json := by
  unfold read?
  rw [String.toList_ofList]
  have hscan := (h.readsBack hl).scan 0 (2 * (json.write layout 0 []).length + 1) [] (by omega) numberEnds_nil
  simp only [hscan]
  rfl

theorem read?_pretty {json : Json} (h : json.Plain) : read? json.pretty = some json :=
  read?_write JsonLayout.blank_pretty h

theorem read?_compact {json : Json} (h : json.Plain) : read? json.compact = some json :=
  read?_write JsonLayout.blank_compact h

end Json
end NesConsole
