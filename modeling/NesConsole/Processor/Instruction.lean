import NesConsole.Text.Hex
/-!
# Operations, addressing modes and instructions

An instruction pairs one of the 56 operations with one of the thirteen addressing modes and carries its cost: a base
cycle count, and whether an indexed address that leaves its base page costs one cycle more.
-/
namespace NesConsole

inductive Operation where
  | lda | ldx | ldy | sta | stx | sty
  | tax | tay | txa | tya | txs | tsx
  | adc | sbc
  | inx | iny | inc | dex | dey | dec
  | and | ora | eor
  | rol | ror | asl | lsr
  | bit | cmp | cpx | cpy
  | jmp | jsr | rts | rti
  | bcc | bcs | bpl | bmi | bne | beq | bvc | bvs
  | pha | php | pla | plp
  | clc | sec | sei | cli | clv | sed | cld
  | brk | nop
  deriving DecidableEq

namespace Operation

def mnemonic : Operation → String
  | lda => "LDA" | ldx => "LDX" | ldy => "LDY" | sta => "STA" | stx => "STX" | sty => "STY"
  | tax => "TAX" | tay => "TAY" | txa => "TXA" | tya => "TYA" | txs => "TXS" | tsx => "TSX"
  | adc => "ADC" | sbc => "SBC"
  | inx => "INX" | iny => "INY" | inc => "INC" | dex => "DEX" | dey => "DEY" | dec => "DEC"
  | and => "AND" | ora => "ORA" | eor => "EOR"
  | rol => "ROL" | ror => "ROR" | asl => "ASL" | lsr => "LSR"
  | bit => "BIT" | cmp => "CMP" | cpx => "CPX" | cpy => "CPY"
  | jmp => "JMP" | jsr => "JSR" | rts => "RTS" | rti => "RTI"
  | bcc => "BCC" | bcs => "BCS" | bpl => "BPL" | bmi => "BMI"
  | bne => "BNE" | beq => "BEQ" | bvc => "BVC" | bvs => "BVS"
  | pha => "PHA" | php => "PHP" | pla => "PLA" | plp => "PLP"
  | clc => "CLC" | sec => "SEC" | sei => "SEI" | cli => "CLI" | clv => "CLV" | sed => "SED" | cld => "CLD"
  | brk => "BRK" | nop => "NOP"

/-- The mnemonic in title case, as instruction descriptions write it. -/
def title (operation : Operation) : String :=
  operation.mnemonic.toLower.capitalize

end Operation

/-- How an instruction finds its operand.  Only `JMP` is `indirect`, only branches are `relative`. -/
inductive AddressMode where
  | implied | accumulator | immediate
  | zeroPage | zeroPageX | zeroPageY
  | absolute | absoluteX | absoluteY
  | indirect | indirectX | indirectY
  | relative
  deriving DecidableEq

namespace AddressMode

def name : AddressMode → String
  | implied => "Implied"
  | accumulator => "Accumulator"
  | immediate => "Immediate"
  | zeroPage => "ZeroPage"
  | zeroPageX => "ZeroPageX"
  | zeroPageY => "ZeroPageY"
  | absolute => "Absolute"
  | absoluteX => "AbsoluteX"
  | absoluteY => "AbsoluteY"
  | indirect => "Indirect"
  | indirectX => "IndirectX"
  | indirectY => "IndirectY"
  | relative => "Relative"

/-- Bytes of an instruction in this mode, the opcode included. -/
def size : AddressMode → Nat
  | implied | accumulator => 1
  | immediate | zeroPage | zeroPageX | zeroPageY | indirectX | indirectY | relative => 2
  | absolute | absoluteX | absoluteY | indirect => 3

/-- Whether operand bytes follow the opcode. -/
def hasOperand (mode : AddressMode) : Bool :=
  mode != implied && mode != accumulator

end AddressMode

structure Instruction where
  operation : Operation
  mode : AddressMode
  /-- Cycles before any penalty. -/
  cycles : Nat
  /-- One cycle more when the indexed address leaves the base page. -/
  pagePenalty : Bool
  deriving DecidableEq

namespace Instruction

def name (i : Instruction) : String := i.operation.mnemonic

/-- `BRK` counts one byte here although its return address skips a second one. -/
def size (i : Instruction) : Nat := i.mode.size

/-- A one-line description of the table entry at opcode `code`. -/
def describe (code : UInt8) (i : Instruction) : String :=
  "Instruction \x7b code: 0x" ++ hexByte code ++ ", op: " ++ i.operation.title ++ ", size: " ++ toString i.size ++
    ", cycles: " ++ toString i.cycles ++ ", mode: " ++ i.mode.name ++ ", page_penalty: " ++ toString i.pagePenalty ++
    " \x7d"

end Instruction
end NesConsole
