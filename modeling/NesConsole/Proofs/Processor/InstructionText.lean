import Mathlib.Data.List.Nodup
import NesConsole.Proofs.Processor.Cycles
/-!
# The text of an instruction tells its bytes

A text is a mnemonic of three letters and what follows it.  With its digits made out alike, what follows shows the
addressing mode, except that a branch target looks like an absolute address (`AddressMode.form_inj`); but a branch is told
by its mnemonic.  In one mode the digits show the operand bytes, also those of a branch target, which is counted from the
program counter modulo 64 KiB (`AddressMode.operandText_inj`).  So two instructions that print alike at one address have the
same opcode and the same operand bytes (`Instruction.format_unambiguous`).
-/
namespace NesConsole

/-! ## Digits -/

theorem hexDigit_inj_fin : ∀ m n : Fin 16, hexDigit m = hexDigit n → m = n := by decide +kernel

theorem hexDigit_inj {m n : Nat} (hm : m < 16) (hn : n < 16) (h : hexDigit m = hexDigit n) : m = n :=
  Fin.val_eq_of_eq (hexDigit_inj_fin ⟨m, hm⟩ ⟨n, hn⟩ h)

theorem hexByteDigits_append_inj {a b : UInt8} {s t : List Char} :
    hexByteDigits a ++ s = hexByteDigits b ++ t ↔ a = b ∧ s = t := by
  constructor
  · intro h
    obtain ⟨hhigh, hlow, hrest⟩ : hexDigit (a.toNat / 16) = hexDigit (b.toNat / 16) ∧
        hexDigit (a.toNat % 16) = hexDigit (b.toNat % 16) ∧ s = t := by
      simpa [hexByteDigits] using h
    have ha : a.toNat < 256 := a.toNat_lt
    have hb : b.toNat < 256 := b.toNat_lt
    have hdiv := hexDigit_inj (by omega) (by omega) hhigh
    have hmod := hexDigit_inj (by omega) (by omega) hlow
    exact ⟨UInt8.toNat_inj.1 (by omega), hrest⟩
  · rintro ⟨rfl, rfl⟩
    rfl

theorem hexByteDigits_inj {a b : UInt8} : hexByteDigits a = hexByteDigits b ↔ a = b := by
  have h := hexByteDigits_append_inj (a := a) (b := b) (s := []) (t := [])
  simpa using h

theorem hexWordDigits_inj {v w : UInt16} : hexWordDigits v = hexWordDigits w ↔ v = w := by
  constructor
  · intro h
    obtain ⟨hhigh, hlow⟩ := hexByteDigits_append_inj.1 h
    rw [← word_bytes v, ← word_bytes w, hhigh, hexByteDigits_inj.1 hlow]
  · rintro rfl
    rfl

theorem toUInt8_signExtend_fin : ∀ n : Fin 256, (signExtend (UInt8.ofFin n)).toUInt8 = UInt8.ofFin n := by
  decide +kernel

theorem toUInt8_signExtend (b : UInt8) : (signExtend b).toUInt8 = b := toUInt8_signExtend_fin b.toFin

theorem signExtend_inj {a b : UInt8} : signExtend a = signExtend b ↔ a = b := by
  constructor
  · intro h
    rw [← toUInt8_signExtend a, h, toUInt8_signExtend]
  · exact congrArg signExtend

/-! ## What follows the mnemonic -/

namespace AddressMode

def operandText (mode : AddressMode) (low high : UInt8) (pc : UInt16) : List Char :=
  let byte := '$' :: hexByteDigits low
  let word := '$' :: (hexByteDigits high ++ hexByteDigits low)
  match mode with
  | implied => []
  | accumulator => [' ', 'A']
  | immediate => [' ', '#'] ++ byte
  | zeroPage => [' '] ++ byte
  | zeroPageX => [' '] ++ byte ++ [',', 'X']
  | zeroPageY => [' '] ++ byte ++ [',', 'Y']
  | absolute => [' '] ++ word
  | absoluteX => [' '] ++ word ++ [',', 'X']
  | absoluteY => [' '] ++ word ++ [',', 'Y']
  | indirect => [' ', '('] ++ word ++ [')']
  | indirectX => [' ', '('] ++ byte ++ [',', 'X', ')']
  | indirectY => [' ', '('] ++ byte ++ [')', ',', 'Y']
  | relative => [' ', '$'] ++ hexWordDigits (pc + UInt16.ofNat relative.size + signExtend low)

/-- **In one mode the text shows the operand bytes.** -/
theorem operandText_inj {mode : AddressMode} {low high low' high' : UInt8} {pc : UInt16}
    (h : mode.operandText low high pc = mode.operandText low' high' pc) (code : UInt8) :
    [code, low, high].take mode.size = [code, low', high'].take mode.size := by
  cases mode with
  | implied | accumulator => rfl
  | immediate | zeroPage | zeroPageX | zeroPageY | indirectX | indirectY =>
    obtain rfl : low = low' := by simpa [operandText, hexByteDigits_append_inj, hexByteDigits_inj] using h
    rfl
  | absolute | absoluteX | absoluteY | indirect =>
    obtain ⟨rfl, rfl⟩ : high = high' ∧ low = low' := by
      simpa [operandText, hexByteDigits_append_inj, hexByteDigits_inj] using h
    rfl
  | relative =>
    obtain rfl : low = low' := by simpa [operandText, hexWordDigits_inj, signExtend_inj] using h
    rfl

/-! ## Forms -/

/-- A character with all digits made out alike. -/
def blurred (c : Char) : Char :=
  if c ∈ ['0', '1', '2', '3', '4', '5', '6', '7', '8', '9', 'A', 'B', 'C', 'D', 'E', 'F'] then '0' else c

theorem blurred_hexDigit_fin : ∀ n : Fin 16, blurred (hexDigit n) = '0' := by decide +kernel

theorem blurred_hexByteDigits (b : UInt8) : (hexByteDigits b).map blurred = ['0', '0'] := by
  have hb : b.toNat < 256 := b.toNat_lt
  have hhigh : blurred (hexDigit (b.toNat / 16)) = '0' := blurred_hexDigit_fin ⟨b.toNat / 16, by omega⟩
  have hlow : blurred (hexDigit (b.toNat % 16)) = '0' := blurred_hexDigit_fin ⟨b.toNat % 16, by omega⟩
  simp [hexByteDigits, hhigh, hlow]

/-- The blurred text, which is that of any operand. -/
def form (mode : AddressMode) : List Char := (mode.operandText 0 0 0).map blurred

theorem blurred_operandText (mode : AddressMode) (low high : UInt8) (pc : UInt16) :
    (mode.operandText low high pc).map blurred = mode.form := by
  cases mode <;> simp [form, operandText, hexWordDigits, blurred_hexByteDigits]

theorem form_inj_all : ∀ mode ∈ all, ∀ mode' ∈ all, mode.form = mode'.form →
    (mode = relative ↔ mode' = relative) → mode = mode' := by decide +kernel

/-- **The form shows the mode**, but for branch targets, which look like absolute addresses. -/
theorem form_inj {mode mode' : AddressMode} (h : mode.form = mode'.form)
    (hrelative : mode = relative ↔ mode' = relative) : mode = mode' :=
  form_inj_all mode mode.mem_all mode' mode'.mem_all h hrelative

end AddressMode

/-! ## Mnemonics -/

namespace Operation

theorem length_mnemonic (operation : Operation) : operation.mnemonic.toList.length = 3 := by
  cases operation <;> rfl

theorem mnemonics_nodup : (all.map mnemonic).Nodup := by decide +kernel

theorem mnemonic_inj {operation operation' : Operation} (h : operation.mnemonic = operation'.mnemonic) :
    operation = operation' :=
  List.inj_on_of_nodup_map mnemonics_nodup operation.mem_all operation'.mem_all h

end Operation

/-! ## Instructions -/

namespace Instruction

theorem toList_format (i : Instruction) (low high : UInt8) (pc : UInt16) :
    (i.format low high pc).toList = i.operation.mnemonic.toList ++ i.mode.operandText low high pc := by
  obtain ⟨operation, mode, cycles, pagePenalty⟩ := i
  cases mode <;> simp [format, name, size, AddressMode.operandText, hexByte, hexWord]

theorem relative_branches_fin : ∀ n : Fin 256, ∀ i ∈ decode (UInt8.ofFin n),
    (i.mode = .relative ↔ i.operation.use = .branches) := by decide +kernel

/-- **The text of an instruction tells its bytes.**  Where two mapped opcodes with two bytes behind each have the same text
at one address, the opcodes are the same, and so are the operand bytes that the instruction has. -/
theorem format_unambiguous (pc : UInt16) {code low high code' low' high' : UInt8} {i i' : Instruction}
    (h : decode code = some i) (h' : decode code' = some i') (htext : i.format low high pc = i'.format low' high' pc) :
    code = code' ∧ [code, low, high].take i.size = [code', low', high'].take i'.size := by
  have hcharacters := congrArg String.toList htext
  rw [toList_format, toList_format] at hcharacters
  obtain ⟨hmnemonic, hoperand⟩ := List.append_inj hcharacters
    (i.operation.length_mnemonic.trans i'.operation.length_mnemonic.symm)
  have hoperation : i.operation = i'.operation := Operation.mnemonic_inj (String.toList_inj.1 hmnemonic)
  have hmode : i.mode = i'.mode := by
    apply AddressMode.form_inj
    · rw [← i.mode.blurred_operandText low high pc, hoperand, AddressMode.blurred_operandText]
    · rw [relative_branches_fin code.toFin i h, relative_branches_fin code'.toFin i' h', hoperation]
  have hcode : code = code' := by
    have hopcode := decode_iff.1 ⟨i, h, rfl, rfl⟩
    have hopcode' := decode_iff.1 ⟨i', h', rfl, rfl⟩
    rw [hoperation, hmode, hopcode'] at hopcode
    exact (Option.some.inj hopcode).symm
  refine ⟨hcode, ?_⟩
  rw [← hmode] at hoperand
  rw [← hcode, size, size, ← hmode]
  exact AddressMode.operandText_inj hoperand code

/-- The byte behind a branch does not belong to it, also where its target comes round to the bottom of memory. -/
theorem format_unambiguous_branch :
    ∃ i, decode 0xD0 = some i ∧ i.format 0x10 0x00 0xFFFE = "BNE $0010" ∧
      i.format 0x10 0x00 0xFFFE = i.format 0x10 0xFF 0xFFFE ∧
      ([0xD0, 0x10, 0x00] : List UInt8).take i.size = [0xD0, 0x10, 0xFF].take i.size := by
  let i : Instruction := { operation := .bne, mode := .relative, cycles := 2, pagePenalty := false }
  have hdecode : decode 0xD0 = some i := by decide
  have htext : i.format 0x10 0x00 0xFFFE = i.format 0x10 0xFF 0xFFFE := rfl
  exact ⟨i, hdecode, by decide, htext, (format_unambiguous 0xFFFE hdecode hdecode htext).2⟩

end Instruction
end NesConsole
