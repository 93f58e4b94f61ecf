import NesConsole.Audio.Envelope
import NesConsole.Audio.Sweep
import NesConsole.Snapshot.Error
/-!
# Saved channels

What a snapshot holds of one channel: its raw registers and its running counters.  `ChannelState.check` accepts the
counters that register writes and ticks can produce.
-/
namespace NesConsole

/-- The four registers of a channel. -/
abbrev ChannelRegisters := Vector UInt8 4

inductive ChannelState where
  | pulse (regs : ChannelRegisters) (stopped : Bool) (length : UInt8) (envelopeDivider : Int16)
      (envelopeDecay : UInt8) (envelopeRestart : Bool) (sweepCounter : Int16)
  | triangle (regs : ChannelRegisters) (stopped : Bool) (length : UInt8)
  | noise (regs : ChannelRegisters) (stopped : Bool) (length : UInt8)
  | dmc (regs : ChannelRegisters) (stopped : Bool) (sampleLength dmaLength : UInt16)
  deriving DecidableEq

/-- The longest sample. -/
def maxSampleLength : UInt16 := 128

/-- The sample length before any is written. -/
def initialSampleLength : UInt16 := 1

/-- The lengths a sample can have: the initial one, and the multiples of 8 up to the longest. -/
def isSampleLength (length : UInt16) : Bool :=
  length == initialSampleLength || (length % 8 == 0 && 8 ≤ length && length ≤ maxSampleLength)

namespace ChannelState

def kind : ChannelState → ChannelKind
  | pulse .. => .pulse
  | triangle .. => .triangle
  | noise .. => .noise
  | dmc .. => .dmc

/-- The first counter out of its range is reported. -/
def check : ChannelState → Except Corruption Unit
  | pulse _ _ _ divider decay _ counter =>
    if ¬ Envelope.DividerRange divider then
      .error (.counterRange .envelopeDivider divider.toInt)
    else if 15 < decay then
      .error (.counterRange .envelopeDecay decay.toNat)
    else if ¬ Sweep.CounterRange counter then
      .error (.counterRange .sweepCounter counter.toInt)
    else
      .ok ()
  | dmc _ _ sampleLength dmaLength =>
    if !isSampleLength sampleLength then
      .error (.counterRange .sampleLength sampleLength.toNat)
    else if maxSampleLength < dmaLength then
      .error (.counterRange .dmaLength dmaLength.toNat)
    else
      .ok ()
  | triangle .. | noise .. => .ok ()

end ChannelState
end NesConsole
