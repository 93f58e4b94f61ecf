import NesConsole.Processor.Interrupt
import NesConsole.Processor.Operand
/-!
# What each operation does

`Operation.execute` is the whole instruction set: from the registers, with the program counter already behind the
instruction, to an exchange that ends in the new registers and the cycles spent on top of the table's count.  It ends in
`none` when the operation needs an address and its operand has none.
-/
namespace NesConsole

/-- What an executed operation leaves behind. -/
structure Effect where
  registers : Registers
  /-- Only taken branches cost extra. -/
  extraCycles : Nat := 0

namespace Operation

/-- Reads the operand's byte and changes the registers by it. -/
def reading (operand : Operand) (change : UInt8 → Registers) : Exchange (Option Effect) :=
  match operand.address with
  | none => return none
  | some address => return some { registers := change (← Exchange.byte address) }

def storing (operand : Operand) (r : Registers) (value : UInt8) : Exchange (Option Effect) :=
  match operand.address with
  | none => return none
  | some address => do
    Exchange.store address value
    return some { registers := r }

/-- Reads a byte and writes its replacement back; N and Z follow the replacement. -/
def replacing (operand : Operand) (r : Registers) (change : UInt8 → UInt8) : Exchange (Option Effect) :=
  match operand.address with
  | none => return none
  | some address => do
    let result := change (← Exchange.byte address)
    Exchange.store address result
    return some { registers := { r with p := r.p.withResult result } }

/-- Shifts A, or memory if the operand has an address.  `shift` takes a byte and the carry to a result and a carry. -/
def shifting (operand : Operand) (r : Registers) (shift : UInt8 → Bool → UInt8 × Bool) : Exchange (Option Effect) :=
  match operand.address with
  | none =>
    let (result, carry) := shift r.a r.p.carry
    return some { registers := { r with a := result, p := r.p.withCarryResult result carry } }
  | some address => do
    let (result, carry) := shift (← Exchange.byte address) r.p.carry
    Exchange.store address result
    return some { registers := { r with p := r.p.withCarryResult result carry } }

def shiftLeft (value : UInt8) (_ : Bool) : UInt8 × Bool := (value <<< 1, value &&& 0x80 != 0)

def shiftRight (value : UInt8) (_ : Bool) : UInt8 × Bool := (value >>> 1, value &&& 0x01 != 0)

def rotateLeft (value : UInt8) (carry : Bool) : UInt8 × Bool := (value <<< 1 ||| carry.toUInt8, value &&& 0x80 != 0)

def rotateRight (value : UInt8) (carry : Bool) : UInt8 × Bool :=
  (value >>> 1 ||| carry.toUInt8 <<< 7, value &&& 0x01 != 0)

/-- A taken branch reads its offset and costs one cycle, two if it lands on another page. -/
def branching (operand : Operand) (r : Registers) (taken : Bool) : Exchange (Option Effect) :=
  if taken then
    match operand.address with
    | none => return none
    | some address => do
      let target := r.pc + signExtend (← Exchange.byte address)
      return some { registers := { r with pc := target }, extraCycles := if differentPages r.pc target then 2 else 1 }
  else
    return some { registers := r }

/-- An operation that stays inside the processor. -/
def internal (r : Registers) : Exchange (Option Effect) :=
  return some { registers := r }

def execute (operation : Operation) (operand : Operand) (r : Registers) : Exchange (Option Effect) :=
  match operation with
  | lda => reading operand r.setA
  | ldx => reading operand r.setX
  | ldy => reading operand r.setY
  | sta => storing operand r r.a
  | stx => storing operand r r.x
  | sty => storing operand r r.y
  | tax => internal (r.setX r.a)
  | tay => internal (r.setY r.a)
  | tsx => internal (r.setX r.s)
  | txa => internal (r.setA r.x)
  | tya => internal (r.setA r.y)
  | txs => internal { r with s := r.x }
  | adc => reading operand r.addToA
  | sbc => reading operand fun value => r.addToA (~~~value)
  | and => reading operand fun value => r.setA (r.a &&& value)
  | ora => reading operand fun value => r.setA (r.a ||| value)
  | eor => reading operand fun value => r.setA (r.a ^^^ value)
  | bit => reading operand fun value =>
    { r with p := { r.p with
      zero := r.a &&& value == 0, negative := value &&& 0x80 != 0, overflow := value &&& 0x40 != 0 } }
  | cmp => reading operand (r.compare r.a)
  | cpx => reading operand (r.compare r.x)
  | cpy => reading operand (r.compare r.y)
  | inx => internal (r.setX (r.x + 1))
  | iny => internal (r.setY (r.y + 1))
  | dex => internal (r.setX (r.x - 1))
  | dey => internal (r.setY (r.y - 1))
  | inc => replacing operand r (· + 1)
  | dec => replacing operand r (· - 1)
  | asl => shifting operand r shiftLeft
  | lsr => shifting operand r shiftRight
  | rol => shifting operand r rotateLeft
  | ror => shifting operand r rotateRight
  | clc => internal { r with p := { r.p with carry := false } }
  | cld => internal { r with p := { r.p with decimal := false } }
  | cli => internal { r with p := { r.p with interruptDisable := false } }
  | clv => internal { r with p := { r.p with overflow := false } }
  | sec => internal { r with p := { r.p with carry := true } }
  | sed => internal { r with p := { r.p with decimal := true } }
  | sei => internal { r with p := { r.p with interruptDisable := true } }
  | pha => return some { registers := ← r.push r.a }
  | php => return some { registers := ← r.push { r.p with breakMark := true }.toByte }
  | pla => do
    let (value, r) ← r.pull
    internal (r.setA value)
  | plp => do
    let (value, r) ← r.pull
    internal { r with p := .pulled value }
  | jmp =>
    match operand.address with
    | none => return none
    | some address => internal { r with pc := address }
  | jsr =>
    match operand.address with
    | none => return none
    | some address => do
      let r ← r.pushWord (r.pc - 1)
      internal { r with pc := address }
  | rts => do
    let (address, r) ← r.pullWord
    internal { r with pc := address + 1 }
  | rti => do
    let (value, r) ← r.pull
    let (address, r) ← { r with p := .pulled value }.pullWord
    internal { r with pc := address }
  | brk => return some { registers := ← Interrupt.brk.enter (r.pc + 1) r }
  | bcc => branching operand r (!r.p.carry)
  | bcs => branching operand r r.p.carry
  | bne => branching operand r (!r.p.zero)
  | beq => branching operand r r.p.zero
  | bpl => branching operand r (!r.p.negative)
  | bmi => branching operand r r.p.negative
  | bvc => branching operand r (!r.p.overflow)
  | bvs => branching operand r r.p.overflow
  | nop => internal r

end Operation
end NesConsole
