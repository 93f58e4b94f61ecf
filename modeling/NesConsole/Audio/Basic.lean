import NesConsole.Audio.Channel
import NesConsole.Audio.Registers
import NesConsole.Joypads
/-!
# The sound unit

The registers at `$4000` to `$401F`: five channels, the status register, and the two joypad registers.  The unit is ticked
once per scanline.  It has two sources of interrupts, and `hblank` says which of them fire; each also leaves a flag that
programs read from `$4015`.
-/
namespace NesConsole

structure Channels where
  pulse1 : Pulse := {}
  pulse2 : Pulse := {}
  triangle : Triangle := {}
  noise : Noise := {}
  dmc : Dmc := {}
  deriving DecidableEq

namespace Channels

def get? (c : Channels) : Nat → Option Channel
  | 0 => some (.pulse c.pulse1)
  | 1 => some (.pulse c.pulse2)
  | 2 => some (.triangle c.triangle)
  | 3 => some (.noise c.noise)
  | 4 => some (.dmc c.dmc)
  | _ => none

/-- Writes a register of a channel; other numbers are no channel. -/
def write (c : Channels) (channel : Nat) (reg : Fin 4) (value : UInt8) : Channels :=
  match channel with
  | 0 => { c with pulse1 := c.pulse1.write reg value }
  | 1 => { c with pulse2 := c.pulse2.write reg value }
  | 2 => { c with triangle := c.triangle.write reg value }
  | 3 => { c with noise := c.noise.write reg value }
  | 4 => { c with dmc := c.dmc.write reg value }
  | _ => c

/-- Each channel is switched by its bit of a value written to `$4015`. -/
def setEnabled (c : Channels) (value : UInt8) : Channels where
  pulse1 := c.pulse1.setEnabled (value &&& 0x01 != 0)
  pulse2 := c.pulse2.setEnabled (value &&& 0x02 != 0)
  triangle := c.triangle.setEnabled (value &&& 0x04 != 0)
  noise := c.noise.setEnabled (value &&& 0x08 != 0)
  dmc := c.dmc.setEnabled (value &&& 0x10 != 0)

def update (c : Channels) : Channels where
  pulse1 := c.pulse1.update
  pulse2 := c.pulse2.update
  triangle := c.triangle.update
  noise := c.noise.update
  dmc := c.dmc.update

/-- One bit per channel that has not stopped, in the order of `$4015`. -/
def playing (c : Channels) : UInt8 :=
  (!c.pulse1.stopped).toUInt8 ||| (!c.pulse2.stopped).toUInt8 <<< 1 ||| (!c.triangle.stopped).toUInt8 <<< 2 |||
    (!c.noise.stopped).toUInt8 <<< 3 ||| (!c.dmc.stopped).toUInt8 <<< 4

def toList (c : Channels) : List Channel :=
  [.pulse c.pulse1, .pulse c.pulse2, .triangle c.triangle, .noise c.noise, .dmc c.dmc]

end Channels

/-- Which interrupt sources fired in a tick. -/
structure AudioRequests where
  dmc : Bool := false
  frame : Bool := false
  deriving DecidableEq

def AudioRequests.any (r : AudioRequests) : Bool := r.dmc || r.frame

structure Apu where
  registers : AudioRegisters := .initial
  channels : Channels := {}
  frameInterrupt : Bool := false
  dmcInterrupt : Bool := false
  pads : Joypads := {}
  deriving DecidableEq

namespace Apu

/-- The scanline at which vertical blank starts. -/
def vblankScanline : UInt16 := 241

/-- A reset leaves the joypads alone. -/
def reset (apu : Apu) : Apu := { pads := apu.pads }

/-- What `$4015` shows: both interrupt flags, and the channels that are enabled and playing. -/
def status (apu : Apu) : UInt8 :=
  apu.registers.enabledChannels &&& apu.channels.playing ||| apu.frameInterrupt.toUInt8 <<< 6 |||
    apu.dmcInterrupt.toUInt8 <<< 7

/-- Reading the status clears the frame flag, but not the other one; the pad registers shift out one bit. -/
def read (apu : Apu) (address : UInt16) : UInt8 × Apu :=
  match AudioRegisters.index? address with
  | some 0x15 => (apu.status, { apu with frameInterrupt := false })
  | some 0x16 => let (bit, pads) := apu.pads.shift 0; (bit, { apu with pads })
  | some 0x17 => let (bit, pads) := apu.pads.shift 1; (bit, { apu with pads })
  | _ => (0, apu)

/-- Every write is stored.  The first twenty registers belong to the channels, four each; `$4015` switches the channels
and clears the sample interrupt; a falling strobe at `$4016` latches the pads. -/
def write (apu : Apu) (address : UInt16) (value : UInt8) : Apu :=
  match AudioRegisters.index? address with
  | none => apu
  | some reg =>
    let strobed := apu.registers.padStrobe
    let apu := { apu with registers := apu.registers.set reg value }
    if reg < 0x14 then
      { apu with channels := apu.channels.write (reg / 4) ⟨reg % 4, Nat.mod_lt reg (by decide)⟩ value }
    else if reg = 0x15 then
      { apu with dmcInterrupt := false, channels := apu.channels.setEnabled value }
    else if reg = 0x16 then
      if strobed && !apu.registers.padStrobe then { apu with pads := apu.pads.latch } else apu
    else
      apu

def tickDmc (apu : Apu) : Bool × Apu :=
  let (fired, dmc) := apu.channels.dmc.hblank
  (fired, { apu with channels := { apu.channels with dmc }, dmcInterrupt := apu.dmcInterrupt || fired })

def tickFrame (apu : Apu) : Bool × Apu :=
  let fired := AudioRegisters.frameIrqEnabled apu.registers.frameCounter
  (fired, { apu with channels := apu.channels.update, frameInterrupt := apu.frameInterrupt || fired })

def hblank (apu : Apu) (scanline : UInt16) : AudioRequests × Apu :=
  let (dmc, apu) := apu.tickDmc
  if scanline = vblankScanline then
    let (frame, apu) := apu.tickFrame
    ({ dmc, frame }, apu)
  else
    ({ dmc }, apu)

def press (apu : Apu) (pad : Nat) (held : Buttons) : Apu :=
  { apu with pads := apu.pads.press pad held }

/-! ## What the host asks for -/

/-- Silent while the channel is not enabled. -/
def volume (apu : Apu) (channel : Nat) : Float32 :=
  if apu.registers.isEnabled channel then (apu.channels.get? channel).elim 0 Channel.volume else 0

def frequency (apu : Apu) (channel : Nat) : Nat :=
  (apu.channels.get? channel).elim 0 Channel.frequency

def duty (apu : Apu) (channel : Nat) : Float32 :=
  (apu.channels.get? channel).elim 0.5 Channel.duty

def isPlaying (apu : Apu) (channel : Nat) : Bool :=
  (apu.channels.get? channel).elim false Channel.isPlaying

/-- The byte last written to a register. -/
def register? (apu : Apu) (address : UInt16) : Option UInt8 :=
  (AudioRegisters.index? address).map apu.registers.get

end Apu

/-! ## Snapshots -/

structure ApuState where
  regs : Array UInt8
  frameInterrupt : Bool
  dmcInterrupt : Bool
  channels : List ChannelState
  deriving DecidableEq

namespace Channels

/-- The pulse channel that the state at `channel` describes, if it is one and its counters are possible. -/
def pulse? (channel : Nat) : ChannelState → Except Corruption Pulse
  | state@(.pulse regs stopped length divider decay restarting counter) => do
    state.check
    return .restore regs stopped length divider decay restarting counter
  | state => .error (.channelKind channel state.kind .pulse)

def triangle? (channel : Nat) : ChannelState → Except Corruption Triangle
  | state@(.triangle regs stopped length) => do
    state.check
    return .restore regs stopped length
  | state => .error (.channelKind channel state.kind .triangle)

def noise? (channel : Nat) : ChannelState → Except Corruption Noise
  | state@(.noise regs stopped length) => do
    state.check
    return .restore regs stopped length
  | state => .error (.channelKind channel state.kind .noise)

def dmc? (channel : Nat) : ChannelState → Except Corruption Dmc
  | state@(.dmc regs stopped sampleLength dmaLength) => do
    state.check
    return .restore regs stopped sampleLength dmaLength
  | state => .error (.channelKind channel state.kind .dmc)

/-- The five channels from their states.  The first state of the wrong kind or with an impossible counter is
reported. -/
def ofStates : List ChannelState → Except Corruption Channels
  | [s0, s1, s2, s3, s4] => do
    let pulse1 ← pulse? 0 s0
    let pulse2 ← pulse? 1 s1
    let triangle ← triangle? 2 s2
    let noise ← noise? 3 s3
    let dmc ← dmc? 4 s4
    return { pulse1, pulse2, triangle, noise, dmc }
  | states => .error (.channelCount states.length 5)

end Channels

namespace Apu

def save (apu : Apu) : ApuState where
  regs := apu.registers.bytes.toArray
  frameInterrupt := apu.frameInterrupt
  dmcInterrupt := apu.dmcInterrupt
  channels := apu.channels.toList.map Channel.save

/-- Takes a snapshot over; the joypads are not part of it. -/
def load (apu : Apu) (state : ApuState) : Except Corruption Apu :=
  if h : state.regs.size = 32 then do
    let channels ← Channels.ofStates state.channels
    return { apu with
      registers := { bytes := ⟨state.regs, h⟩ }
      channels
      frameInterrupt := state.frameInterrupt
      dmcInterrupt := state.dmcInterrupt }
  else
    .error (.audioRegisters state.regs.size 32)

end Apu
end NesConsole
