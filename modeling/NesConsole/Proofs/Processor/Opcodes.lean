import NesConsole.Processor.Decode
/-!
# The documented opcodes

A programmer's reference lists the instruction set the other way round than a decoder: under each operation the modes it
can be used in, each with its opcode.  `Operation.opcode?` is that list, with the regularities such references show:
eight operations on A share one row of modes, and so do the operations that replace a byte of memory.  The opcode matrix
is its inverse (`Instruction.decode_iff`).
-/
namespace NesConsole

namespace AddressMode

/-- The row of modes of the operations that combine A with a byte, from the operation's first opcode on. -/
def combining? : AddressMode → Option UInt8
  | indirectX => some 0x01
  | zeroPage => some 0x05
  | immediate => some 0x09
  | absolute => some 0x0D
  | indirectY => some 0x11
  | zeroPageX => some 0x15
  | absoluteY => some 0x19
  | absoluteX => some 0x1D
  | _ => none

/-- The row of modes of the operations that replace a byte of memory. -/
def replacing? : AddressMode → Option UInt8
  | zeroPage => some 0x06
  | absolute => some 0x0E
  | zeroPageX => some 0x16
  | absoluteX => some 0x1E
  | _ => none

/-- The row of the shifts, which can be applied to A too. -/
def shifting? : AddressMode → Option UInt8
  | accumulator => some 0x0A
  | mode => mode.replacing?

/-- An operation of one mode. -/
def only? (mode mode' : AddressMode) (code : UInt8) : Option UInt8 :=
  if mode' = mode then some code else none

def all : List AddressMode :=
  [implied, accumulator, immediate, zeroPage, zeroPageX, zeroPageY, absolute, absoluteX, absoluteY, indirect, indirectX,
    indirectY, relative]

theorem mem_all (mode : AddressMode) : mode ∈ all := by
  cases mode <;> decide

end AddressMode

namespace Operation

/-- The opcode of an operation in a mode, if it is documented in that mode. -/
def opcode? (operation : Operation) (mode : AddressMode) : Option UInt8 :=
  match operation with
  | ora => mode.combining?.map (0x00 + ·)
  | and => mode.combining?.map (0x20 + ·)
  | eor => mode.combining?.map (0x40 + ·)
  | adc => mode.combining?.map (0x60 + ·)
  | sta => if mode = .immediate then none else mode.combining?.map (0x80 + ·)
  | lda => mode.combining?.map (0xA0 + ·)
  | cmp => mode.combining?.map (0xC0 + ·)
  | sbc => mode.combining?.map (0xE0 + ·)
  | asl => mode.shifting?.map (0x00 + ·)
  | rol => mode.shifting?.map (0x20 + ·)
  | lsr => mode.shifting?.map (0x40 + ·)
  | ror => mode.shifting?.map (0x60 + ·)
  | dec => mode.replacing?.map (0xC0 + ·)
  | inc => mode.replacing?.map (0xE0 + ·)
  | stx =>
    match mode with
    | .zeroPage => some 0x86 | .absolute => some 0x8E | .zeroPageY => some 0x96
    | _ => none
  | ldx =>
    match mode with
    | .immediate => some 0xA2 | .zeroPage => some 0xA6 | .absolute => some 0xAE | .zeroPageY => some 0xB6
    | .absoluteY => some 0xBE
    | _ => none
  | sty =>
    match mode with
    | .zeroPage => some 0x84 | .absolute => some 0x8C | .zeroPageX => some 0x94
    | _ => none
  | ldy =>
    match mode with
    | .immediate => some 0xA0 | .zeroPage => some 0xA4 | .absolute => some 0xAC | .zeroPageX => some 0xB4
    | .absoluteX => some 0xBC
    | _ => none
  | cpy =>
    match mode with
    | .immediate => some 0xC0 | .zeroPage => some 0xC4 | .absolute => some 0xCC
    | _ => none
  | cpx =>
    match mode with
    | .immediate => some 0xE0 | .zeroPage => some 0xE4 | .absolute => some 0xEC
    | _ => none
  | bit =>
    match mode with
    | .zeroPage => some 0x24 | .absolute => some 0x2C
    | _ => none
  | jmp =>
    match mode with
    | .absolute => some 0x4C | .indirect => some 0x6C
    | _ => none
  | jsr => AddressMode.absolute.only? mode 0x20
  | bpl => AddressMode.relative.only? mode 0x10
  | bmi => AddressMode.relative.only? mode 0x30
  | bvc => AddressMode.relative.only? mode 0x50
  | bvs => AddressMode.relative.only? mode 0x70
  | bcc => AddressMode.relative.only? mode 0x90
  | bcs => AddressMode.relative.only? mode 0xB0
  | bne => AddressMode.relative.only? mode 0xD0
  | beq => AddressMode.relative.only? mode 0xF0
  | brk => AddressMode.implied.only? mode 0x00
  | rti => AddressMode.implied.only? mode 0x40
  | rts => AddressMode.implied.only? mode 0x60
  | php => AddressMode.implied.only? mode 0x08
  | plp => AddressMode.implied.only? mode 0x28
  | pha => AddressMode.implied.only? mode 0x48
  | pla => AddressMode.implied.only? mode 0x68
  | clc => AddressMode.implied.only? mode 0x18
  | sec => AddressMode.implied.only? mode 0x38
  | cli => AddressMode.implied.only? mode 0x58
  | sei => AddressMode.implied.only? mode 0x78
  | clv => AddressMode.implied.only? mode 0xB8
  | cld => AddressMode.implied.only? mode 0xD8
  | sed => AddressMode.implied.only? mode 0xF8
  | txa => AddressMode.implied.only? mode 0x8A
  | txs => AddressMode.implied.only? mode 0x9A
  | tax => AddressMode.implied.only? mode 0xAA
  | tsx => AddressMode.implied.only? mode 0xBA
  | tya => AddressMode.implied.only? mode 0x98
  | tay => AddressMode.implied.only? mode 0xA8
  | dey => AddressMode.implied.only? mode 0x88
  | iny => AddressMode.implied.only? mode 0xC8
  | dex => AddressMode.implied.only? mode 0xCA
  | inx => AddressMode.implied.only? mode 0xE8
  | nop => AddressMode.implied.only? mode 0xEA

def all : List Operation :=
  [lda, ldx, ldy, sta, stx, sty, tax, tay, txa, tya, txs, tsx, adc, sbc, inx, iny, inc, dex, dey, dec, and, ora, eor,
    rol, ror, asl, lsr, bit, cmp, cpx, cpy, jmp, jsr, rts, rti, bcc, bcs, bpl, bmi, bne, beq, bvc, bvs, pha, php, pla,
    plp, clc, sec, sei, cli, clv, sed, cld, brk, nop]

theorem mem_all (operation : Operation) : operation ∈ all := by
  cases operation <;> decide

end Operation

namespace Instruction

theorem opcode_of_decode_fin : ∀ n : Fin 256, ∀ i ∈ decode (UInt8.ofFin n),
    i.operation.opcode? i.mode = some (UInt8.ofFin n) := by decide +kernel

/-- Whether the matrix has this operation in this mode wherever the reference has it. -/
def agrees (operation : Operation) (mode : AddressMode) : Bool :=
  (operation.opcode? mode).all fun code => (decode code).any fun i => i.operation == operation && i.mode == mode

theorem agrees_all : (Operation.all.all fun operation => AddressMode.all.all (agrees operation)) = true := by
  decide +kernel

/-- **Decoding inverts the reference**: the matrix maps exactly the documented opcodes, each to its operation and mode. -/
theorem decode_iff {code : UInt8} {operation : Operation} {mode : AddressMode} :
    (∃ i, decode code = some i ∧ i.operation = operation ∧ i.mode = mode) ↔ operation.opcode? mode = some code := by
  constructor
  · rintro ⟨i, hdecode, rfl, rfl⟩
    exact opcode_of_decode_fin code.toFin i hdecode
  · intro hopcode
    have hagrees : agrees operation mode = true :=
      List.all_eq_true.1 (List.all_eq_true.1 agrees_all operation operation.mem_all) mode mode.mem_all
    rw [agrees, hopcode] at hagrees
    obtain ⟨i, hdecode, hfound⟩ := (Option.any_eq_true _ _).1 hagrees
    exact ⟨i, hdecode, by simpa using hfound⟩

end Instruction
end NesConsole
