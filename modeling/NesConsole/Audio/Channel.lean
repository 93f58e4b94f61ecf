import NesConsole.Audio.ChannelState
import NesConsole.Audio.LengthCounter
/-!
# Sound channels

The four kinds of channel and what they have in common: four registers, a flag that says whether the channel has
stopped, and a tick once per frame.  Sample synthesis is left to the host, which asks for volume, frequency and duty.

A channel keeps decoded copies of some register bits.  They are functions of the raw registers, so a channel is rebuilt
from its saved state alone.
-/
namespace NesConsole

/-- Processor clock in Hz. -/
def processorClock : Nat := 1789773

/-- A level in fifteenths as a volume from 0 to 1. -/
def volumeOfLevel (level : UInt8) : Float32 :=
  Float32.ofNat level.toNat / 15

/-- Timer periods of the noise generator, used for sample rates too. -/
def noisePeriods : Vector Nat 16 :=
  #v[4, 8, 16, 32, 64, 96, 128, 160, 202, 254, 380, 508, 762, 1016, 2034, 4068]

namespace ChannelRegisters

def zero : ChannelRegisters := .replicate 4 0

def control (regs : ChannelRegisters) : UInt8 := regs[0]

/-- The second register, of a pulse channel that of its sweep. -/
def sweep (regs : ChannelRegisters) : UInt8 := regs[1]

/-- The eleven-bit timer: the third register and the low bits of the fourth. -/
def timer (regs : ChannelRegisters) : UInt16 :=
  regs[2].toUInt16 ||| (regs[3].toUInt16 &&& 0x07) <<< 8

/-- Stores a timer and keeps the other bits of the fourth register. -/
def setTimer (regs : ChannelRegisters) (timer : UInt16) : ChannelRegisters :=
  let kept := regs[3] &&& 0xF8
  (regs.set 2 timer.toUInt8).set 3 (kept ||| (timer >>> 8).toUInt8 &&& 0x07)

def noisePeriod (regs : ChannelRegisters) : Nat :=
  have : regs[2].toNat % 16 < 16 := Nat.mod_lt _ (by decide)
  noisePeriods[regs[2].toNat % 16]

def simpleVolume (regs : ChannelRegisters) : Float32 :=
  if regs.control &&& 0x10 != 0 then volumeOfLevel (regs.control &&& 0x0F) else 1

/-- Length-halt bit of the pulse and noise channels. -/
def halt (regs : ChannelRegisters) : Bool := regs.control &&& 0x20 != 0

/-- Length-halt bit of the triangle channel. -/
def triangleHalt (regs : ChannelRegisters) : Bool := regs.control &&& 0x80 != 0

end ChannelRegisters

/-! ## Pulse -/

structure Pulse where
  regs : ChannelRegisters := .zero
  stopped : Bool := true
  length : LengthCounter := {}
  envelope : Envelope := {}
  sweep : Sweep := {}
  deriving DecidableEq

namespace Pulse

def lengthStep : UInt8 := 4

def timer (c : Pulse) : UInt16 := c.regs.timer

/-- Writes to the first and the fourth register start the channel. -/
def write (c : Pulse) (reg : Fin 4) (value : UInt8) : Pulse :=
  let c := { c with regs := c.regs.set reg value }
  match reg with
  | 0 => { c with stopped := false, envelope := c.envelope.set value, length := c.length.setHalt c.regs.halt }
  | 1 => { c with sweep := c.sweep.set value }
  | 2 => c
  | 3 => { c with stopped := false, envelope := c.envelope.restart, length := c.length.loadIndex (value >>> 3) }

def setEnabled (c : Pulse) (enabled : Bool) : Pulse :=
  if enabled then c else { c with stopped := true }

/-- One frame.  An exhausted length or a silencing sweep stops the channel; the sweep's timer goes back into the
registers. -/
def update (c : Pulse) : Pulse :=
  if c.stopped then
    c
  else
    let (exhausted, length) := c.length.clock lengthStep
    let swept := c.sweep.clock c.timer
    { regs := c.regs.setTimer swept.timer
      stopped := exhausted || swept.silenced
      length
      envelope := c.envelope.clock
      sweep := swept.sweep }

def volume (c : Pulse) : Float32 :=
  if c.stopped then 0 else volumeOfLevel c.envelope.level

def frequency (c : Pulse) : Nat :=
  processorClock / 16 / (c.timer.toNat + 1)

/-- Fraction of the wave that is high; negative for the inverted quarter. -/
def duty (c : Pulse) : Float32 :=
  match c.regs.control >>> 6 with
  | 0 => 0.125
  | 1 => 0.25
  | 2 => 0.5
  | _ => -0.25

def save (c : Pulse) : ChannelState :=
  .pulse c.regs c.stopped c.length.value c.envelope.divider c.envelope.decay c.envelope.restarting c.sweep.counter

def restore (regs : ChannelRegisters) (stopped : Bool) (length : UInt8) (divider : Int16) (decay : UInt8)
    (restarting : Bool) (counter : Int16) : Pulse where
  regs
  stopped
  length := { halted := regs.halt, value := length }
  envelope := (({} : Envelope).decode regs.control).restore divider decay restarting
  sweep := (({} : Sweep).decode regs.sweep).restore counter

end Pulse

/-! ## Triangle -/

structure Triangle where
  regs : ChannelRegisters := .zero
  stopped : Bool := true
  length : LengthCounter := {}
  deriving DecidableEq

namespace Triangle

def lengthStep : UInt8 := 4

/-- The length is the low seven bits of the first register; a zero length stops the channel. -/
def reload (c : Triangle) : Triangle :=
  let value := c.regs.control &&& 0x7F
  { c with length := { halted := c.regs.triangleHalt, value }, stopped := value == 0 }

/-- Writes to the first and the fourth register reload the length. -/
def write (c : Triangle) (reg : Fin 4) (value : UInt8) : Triangle :=
  let c := { c with regs := c.regs.set reg value }
  if reg = 0 ∨ reg = 3 then c.reload else c

def setEnabled (c : Triangle) (enabled : Bool) : Triangle :=
  if enabled then c else { c with stopped := true }

def update (c : Triangle) : Triangle :=
  if c.stopped then
    c
  else
    let (exhausted, length) := c.length.clock lengthStep
    { c with length, stopped := exhausted }

def volume (c : Triangle) : Float32 :=
  if c.stopped then 0 else 1

def frequency (c : Triangle) : Nat :=
  processorClock / 32 / (c.regs.timer.toNat + 1)

def save (c : Triangle) : ChannelState :=
  .triangle c.regs c.stopped c.length.value

def restore (regs : ChannelRegisters) (stopped : Bool) (length : UInt8) : Triangle where
  regs
  stopped
  length := { halted := regs.triangleHalt, value := length }

end Triangle

/-! ## Noise -/

structure Noise where
  regs : ChannelRegisters := .zero
  stopped : Bool := true
  length : LengthCounter := {}
  deriving DecidableEq

namespace Noise

def lengthStep : UInt8 := 1

/-- Only a write to the fourth register starts the channel. -/
def write (c : Noise) (reg : Fin 4) (value : UInt8) : Noise :=
  let c := { c with regs := c.regs.set reg value }
  match reg with
  | 0 => { c with length := c.length.setHalt c.regs.halt }
  | 1 | 2 => c
  | 3 => { c with length := c.length.loadIndex (value >>> 3), stopped := false }

def setEnabled (c : Noise) (enabled : Bool) : Noise :=
  if enabled then c else { c with stopped := true }

/-- The mode bit, which keeps a channel with an exhausted counter alive. -/
def modeBit (c : Noise) : Bool := c.regs[2] &&& 0x80 != 0

def update (c : Noise) : Noise :=
  if c.stopped then
    c
  else
    let (exhausted, length) := c.length.clock lengthStep
    { c with length, stopped := exhausted && !c.modeBit }

def volume (c : Noise) : Float32 :=
  if c.stopped then 0 else c.regs.simpleVolume

def frequency (c : Noise) : Nat := c.regs.noisePeriod

def save (c : Noise) : ChannelState :=
  .noise c.regs c.stopped c.length.value

def restore (regs : ChannelRegisters) (stopped : Bool) (length : UInt8) : Noise where
  regs
  stopped
  length := { halted := regs.halt, value := length }

end Noise

/-! ## Delta modulation -/

/-- The sample player, as a countdown of its remaining bytes that is ticked once per scanline. -/
structure Dmc where
  regs : ChannelRegisters := .zero
  stopped : Bool := true
  sampleLength : UInt16 := initialSampleLength
  dmaLength : UInt16 := 0
  deriving DecidableEq

namespace Dmc

def irqBit (c : Dmc) : Bool := c.regs.control &&& 0x80 != 0

def loopBit (c : Dmc) : Bool := c.regs.control &&& 0x40 != 0

/-- A write to the fourth register sets the sample's length, in steps of eight bytes. -/
def write (c : Dmc) (reg : Fin 4) (value : UInt8) : Dmc :=
  let c := { c with regs := c.regs.set reg value }
  if reg = 3 then { c with sampleLength := (value.toUInt16 >>> 4 + 1) * 8, stopped := false } else c

/-- Enabling primes an exhausted counter and leaves a running one alone; disabling empties it. -/
def setEnabled (c : Dmc) (enabled : Bool) : Dmc :=
  if enabled then
    { c with stopped := false, dmaLength := if c.dmaLength = 0 then c.sampleLength else c.dmaLength }
  else
    { c with stopped := true, dmaLength := 0 }

/-- One scanline.  Tells whether the sample ran out with its interrupt enabled. -/
def hblank (c : Dmc) : Bool × Dmc :=
  if c.stopped then (false, c)
  else if c.dmaLength ≠ 0 then (false, { c with dmaLength := c.dmaLength - 1 })
  else if c.loopBit then (false, { c with dmaLength := c.sampleLength })
  else (c.irqBit, { c with stopped := true })

/-- Nothing happens once per frame: the countdown runs per scanline. -/
def update (c : Dmc) : Dmc := c

def volume (c : Dmc) : Float32 :=
  if c.stopped then 0 else c.regs.simpleVolume

def frequency (c : Dmc) : Nat := c.regs.noisePeriod

def save (c : Dmc) : ChannelState :=
  .dmc c.regs c.stopped c.sampleLength c.dmaLength

def restore (regs : ChannelRegisters) (stopped : Bool) (sampleLength dmaLength : UInt16) : Dmc :=
  { regs, stopped, sampleLength, dmaLength }

end Dmc

/-! ## A channel of any kind -/

inductive Channel where
  | pulse (c : Pulse)
  | triangle (c : Triangle)
  | noise (c : Noise)
  | dmc (c : Dmc)
  deriving DecidableEq

namespace Channel

/-- A channel as it is after power-on or a reset. -/
def initial : ChannelKind → Channel
  | .pulse => pulse {}
  | .triangle => triangle {}
  | .noise => noise {}
  | .dmc => dmc {}

def kind : Channel → ChannelKind
  | pulse _ => .pulse
  | triangle _ => .triangle
  | noise _ => .noise
  | dmc _ => .dmc

def reset (c : Channel) : Channel := initial c.kind

def write (channel : Channel) (reg : Fin 4) (value : UInt8) : Channel :=
  match channel with
  | pulse c => pulse (c.write reg value)
  | triangle c => triangle (c.write reg value)
  | noise c => noise (c.write reg value)
  | dmc c => dmc (c.write reg value)

def setEnabled (channel : Channel) (enabled : Bool) : Channel :=
  match channel with
  | pulse c => pulse (c.setEnabled enabled)
  | triangle c => triangle (c.setEnabled enabled)
  | noise c => noise (c.setEnabled enabled)
  | dmc c => dmc (c.setEnabled enabled)

def update : Channel → Channel
  | pulse c => pulse c.update
  | triangle c => triangle c.update
  | noise c => noise c.update
  | dmc c => dmc c.update

def isPlaying : Channel → Bool
  | pulse c => !c.stopped
  | triangle c => !c.stopped
  | noise c => !c.stopped
  | dmc c => !c.stopped

def volume : Channel → Float32
  | pulse c => c.volume
  | triangle c => c.volume
  | noise c => c.volume
  | dmc c => c.volume

def frequency : Channel → Nat
  | pulse c => c.frequency
  | triangle c => c.frequency
  | noise c => c.frequency
  | dmc c => c.frequency

/-- Channels without a duty register have a symmetric wave. -/
def duty : Channel → Float32
  | pulse c => c.duty
  | triangle _ | noise _ | dmc _ => 0.5

def save : Channel → ChannelState
  | pulse c => c.save
  | triangle c => c.save
  | noise c => c.save
  | dmc c => c.save

/-- The channel a state describes. -/
def ofState : ChannelState → Channel
  | .pulse regs stopped length divider decay restarting counter =>
    pulse (.restore regs stopped length divider decay restarting counter)
  | .triangle regs stopped length => triangle (.restore regs stopped length)
  | .noise regs stopped length => noise (.restore regs stopped length)
  | .dmc regs stopped sampleLength dmaLength => dmc (.restore regs stopped sampleLength dmaLength)

/-- Takes a state of its own kind over; the counters are not checked. -/
def load (channel : Channel) (state : ChannelState) : Except Corruption Channel :=
  if state.kind = channel.kind then .ok (ofState state) else .error (.foreignChannel channel.kind state.kind)

end Channel
end NesConsole
