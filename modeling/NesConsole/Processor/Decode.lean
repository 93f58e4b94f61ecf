import NesConsole.Processor.Instruction
/-!
# The opcode matrix

Sixteen rows of sixteen opcodes, the row chosen by the high digit and the column by the low one.  The 105 undocumented
opcodes are unmapped.
-/
namespace NesConsole
namespace Instruction

def fixed (operation : Operation) (mode : AddressMode) (cycles : Nat) : Option Instruction :=
  some { operation, mode, cycles, pagePenalty := false }

def crossing (operation : Operation) (mode : AddressMode) (cycles : Nat) : Option Instruction :=
  some { operation, mode, cycles, pagePenalty := true }

def matrix : Vector (Vector (Option Instruction) 16) 16 :=
  #v[
    -- $00
    #v[fixed .brk .implied 7, fixed .ora .indirectX 6, none, none,
      none, fixed .ora .zeroPage 3, fixed .asl .zeroPage 5, none,
      fixed .php .implied 3, fixed .ora .immediate 2, fixed .asl .accumulator 2, none,
      none, fixed .ora .absolute 4, fixed .asl .absolute 6, none],
    -- $10
    #v[fixed .bpl .relative 2, crossing .ora .indirectY 5, none, none,
      none, fixed .ora .zeroPageX 4, fixed .asl .zeroPageX 6, none,
      fixed .clc .implied 2, crossing .ora .absoluteY 4, none, none,
      none, crossing .ora .absoluteX 4, fixed .asl .absoluteX 7, none],
    -- $20
    #v[fixed .jsr .absolute 6, fixed .and .indirectX 6, none, none,
      fixed .bit .zeroPage 3, fixed .and .zeroPage 3, fixed .rol .zeroPage 5, none,
      fixed .plp .implied 4, fixed .and .immediate 2, fixed .rol .accumulator 2, none,
      fixed .bit .absolute 4, fixed .and .absolute 4, fixed .rol .absolute 6, none],
    -- $30
    #v[fixed .bmi .relative 2, crossing .and .indirectY 5, none, none,
      none, fixed .and .zeroPageX 4, fixed .rol .zeroPageX 6, none,
      fixed .sec .implied 2, crossing .and .absoluteY 4, none, none,
      none, crossing .and .absoluteX 4, fixed .rol .absoluteX 7, none],
    -- $40
    #v[fixed .rti .implied 6, fixed .eor .indirectX 6, none, none,
      none, fixed .eor .zeroPage 3, fixed .lsr .zeroPage 5, none,
      fixed .pha .implied 3, fixed .eor .immediate 2, fixed .lsr .accumulator 2, none,
      fixed .jmp .absolute 3, fixed .eor .absolute 4, fixed .lsr .absolute 6, none],
    -- $50
    #v[fixed .bvc .relative 2, crossing .eor .indirectY 5, none, none,
      none, fixed .eor .zeroPageX 4, fixed .lsr .zeroPageX 6, none,
      fixed .cli .implied 2, crossing .eor .absoluteY 4, none, none,
      none, crossing .eor .absoluteX 4, fixed .lsr .absoluteX 7, none],
    -- $60
    #v[fixed .rts .implied 6, fixed .adc .indirectX 6, none, none,
      none, fixed .adc .zeroPage 3, fixed .ror .zeroPage 5, none,
      fixed .pla .implied 4, fixed .adc .immediate 2, fixed .ror .accumulator 2, none,
      fixed .jmp .indirect 5, fixed .adc .absolute 4, fixed .ror .absolute 6, none],
    -- $70
    #v[fixed .bvs .relative 2, crossing .adc .indirectY 5, none, none,
      none, fixed .adc .zeroPageX 4, fixed .ror .zeroPageX 6, none,
      fixed .sei .implied 2, crossing .adc .absoluteY 4, none, none,
      none, crossing .adc .absoluteX 4, fixed .ror .absoluteX 7, none],
    -- $80
    #v[none, fixed .sta .indirectX 6, none, none,
      fixed .sty .zeroPage 3, fixed .sta .zeroPage 3, fixed .stx .zeroPage 3, none,
      fixed .dey .implied 2, none, fixed .txa .implied 2, none,
      fixed .sty .absolute 4, fixed .sta .absolute 4, fixed .stx .absolute 4, none],
    -- $90
    #v[fixed .bcc .relative 2, fixed .sta .indirectY 6, none, none,
      fixed .sty .zeroPageX 4, fixed .sta .zeroPageX 4, fixed .stx .zeroPageY 4, none,
      fixed .tya .implied 2, fixed .sta .absoluteY 5, fixed .txs .implied 2, none,
      none, fixed .sta .absoluteX 5, none, none],
    -- $A0
    #v[fixed .ldy .immediate 2, fixed .lda .indirectX 6, fixed .ldx .immediate 2, none,
      fixed .ldy .zeroPage 3, fixed .lda .zeroPage 3, fixed .ldx .zeroPage 3, none,
      fixed .tay .implied 2, fixed .lda .immediate 2, fixed .tax .implied 2, none,
      fixed .ldy .absolute 4, fixed .lda .absolute 4, fixed .ldx .absolute 4, none],
    -- $B0
    #v[fixed .bcs .relative 2, crossing .lda .indirectY 5, none, none,
      fixed .ldy .zeroPageX 4, fixed .lda .zeroPageX 4, fixed .ldx .zeroPageY 4, none,
      fixed .clv .implied 2, crossing .lda .absoluteY 4, fixed .tsx .implied 2, none,
      crossing .ldy .absoluteX 4, crossing .lda .absoluteX 4, crossing .ldx .absoluteY 4, none],
    -- $C0
    #v[fixed .cpy .immediate 2, fixed .cmp .indirectX 6, none, none,
      fixed .cpy .zeroPage 3, fixed .cmp .zeroPage 3, fixed .dec .zeroPage 5, none,
      fixed .iny .implied 2, fixed .cmp .immediate 2, fixed .dex .implied 2, none,
      fixed .cpy .absolute 4, fixed .cmp .absolute 4, fixed .dec .absolute 6, none],
    -- $D0
    #v[fixed .bne .relative 2, crossing .cmp .indirectY 5, none, none,
      none, fixed .cmp .zeroPageX 4, fixed .dec .zeroPageX 6, none,
      fixed .cld .implied 2, crossing .cmp .absoluteY 4, none, none,
      none, crossing .cmp .absoluteX 4, fixed .dec .absoluteX 7, none],
    -- $E0
    #v[fixed .cpx .immediate 2, fixed .sbc .indirectX 6, none, none,
      fixed .cpx .zeroPage 3, fixed .sbc .zeroPage 3, fixed .inc .zeroPage 5, none,
      fixed .inx .implied 2, fixed .sbc .immediate 2, fixed .nop .implied 2, none,
      fixed .cpx .absolute 4, fixed .sbc .absolute 4, fixed .inc .absolute 6, none],
    -- $F0
    #v[fixed .beq .relative 2, crossing .sbc .indirectY 5, none, none,
      none, fixed .sbc .zeroPageX 4, fixed .inc .zeroPageX 6, none,
      fixed .sed .implied 2, crossing .sbc .absoluteY 4, none, none,
      none, crossing .sbc .absoluteX 4, fixed .inc .absoluteX 7, none]
  ]

/-- The instruction an opcode stands for, none if it is unmapped. -/
def decode (code : UInt8) : Option Instruction :=
  have : code.toNat < 256 := code.toNat_lt
  (matrix[code.toNat / 16])[code.toNat % 16]

end Instruction
end NesConsole
