/-!
# Sound registers

The 32 bytes at `$4000` to `$401F` as last written, and what their bits say.
-/
namespace NesConsole

structure AudioRegisters where
  bytes : Vector UInt8 32 := (Vector.replicate 32 0).set 0x17 0x40
  deriving DecidableEq

namespace AudioRegisters

def base : UInt16 := 0x4000

/-- Register number of a processor address, if it lies in the window. -/
def index? (address : UInt16) : Option (Fin 32) :=
  if h : base ≤ address ∧ address.toNat - base.toNat < 32 then some ⟨address.toNat - base.toNat, h.2⟩ else none

/-- All zero, but frame interrupts are inhibited. -/
def initial : AudioRegisters := {}

def get (r : AudioRegisters) (reg : Fin 32) : UInt8 := r.bytes[reg]

def set (r : AudioRegisters) (reg : Fin 32) (value : UInt8) : AudioRegisters :=
  { r with bytes := r.bytes.set reg value }

/-- The bit of `$4015` that enables a channel; 0 if there is no such channel. -/
def channelBit (channel : Nat) : UInt8 :=
  if channel < 5 then 1 <<< UInt8.ofNat channel else 0

/-- The enable bits of the five channels. -/
def enabledChannels (r : AudioRegisters) : UInt8 := r.bytes[0x15] &&& 0x1F

def isEnabled (r : AudioRegisters) (channel : Nat) : Bool :=
  r.enabledChannels &&& channelBit channel != 0

/-- The interrupt-inhibit and five-step bits of a frame counter value. -/
def frameBits (value : UInt8) : UInt8 := value &&& 0xC0

/-- Frame interrupts fire only with both bits clear. -/
def frameIrqEnabled (value : UInt8) : Bool := frameBits value == 0

def frameCounter (r : AudioRegisters) : UInt8 := r.bytes[0x17]

/-- Bit 0 of `$4016`. -/
def padStrobe (r : AudioRegisters) : Bool := r.bytes[0x16] &&& 0x01 != 0

end AudioRegisters
end NesConsole
