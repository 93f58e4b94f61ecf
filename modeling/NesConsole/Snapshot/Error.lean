import NesConsole.Audio.ChannelKind
import NesConsole.Text.Hex
/-!
# Why a snapshot is rejected

Each cause is a constructor that carries what its message shows.  The wording is `Corruption.message` and
`SnapshotError.message`, and stands nowhere else.
-/
namespace NesConsole

/-- A counter whose saved value is checked against its range. -/
inductive CounterField where
  | envelopeDivider
  | envelopeDecay
  | sweepCounter
  | sampleLength
  | dmaLength
  deriving DecidableEq

def CounterField.name : CounterField → String
  | envelopeDivider => "pulse envelope divider"
  | envelopeDecay => "pulse envelope decay"
  | sweepCounter => "pulse sweep counter"
  | sampleLength => "dmc sample length"
  | dmaLength => "dmc dma length"

inductive Corruption where
  | reservedBitClear (status : UInt8)
  | workRamSize (size : Nat)
  /-- An image given to the bus alone is told the size it should have. -/
  | workRamImage (size expected : Nat)
  | cartridgePresence
  | audioRegisters (size expected : Nat)
  | channelCount (count expected : Nat)
  | channelKind (channel : Nat) (found expected : ChannelKind)
  /-- A state given to a single channel of another kind. -/
  | foreignChannel (expected found : ChannelKind)
  | counterRange (field : CounterField) (value : Int)
  | boardNumber (saved inserted : UInt16)
  | prgRamSize (size : Nat)
  | chrRamMismatch
  | prgBank (bank count : Nat)
  | chrBank (bank count : Nat)
  | boardRegisters (board : UInt16) (expected size : Nat)
  | shiftCount (count : UInt8)
  deriving DecidableEq

def Corruption.message : Corruption → String
  | reservedBitClear status => "cpu status 0x" ++ hexByte status ++ " has the reserved bit clear"
  | workRamSize size => s!"work RAM image is {size} bytes"
  | workRamImage size expected => s!"work RAM image is {size} bytes, expected {expected}"
  | cartridgePresence => "cartridge presence does not match the snapshot"
  | audioRegisters size expected => s!"apu register image is {size} bytes, expected {expected}"
  | channelCount count expected => s!"apu has {count} channels, expected {expected}"
  | channelKind channel found expected => s!"apu channel {channel} is {found.name}, expected {expected.name}"
  | foreignChannel expected found => s!"expected {expected.name} channel state, found {found.name}"
  | counterRange field value => s!"{field.name} {value} out of range"
  | boardNumber saved inserted => s!"snapshot is for mapper {saved}, cartridge uses mapper {inserted}"
  | prgRamSize size => s!"PRG-RAM image is {size} bytes"
  | chrRamMismatch => "CHR-RAM image does not match the cartridge"
  | prgBank bank count => s!"PRG bank {bank} out of range ({count} banks)"
  | chrBank bank count => s!"CHR bank {bank} out of range ({count} banks)"
  | boardRegisters board expected size => s!"mapper {board} expects {expected} register bytes, got {size}"
  | shiftCount count => s!"MMC1 shift count {count} out of range"

inductive SnapshotError where
  | corrupt (cause : Corruption)
  | unsupportedVersion (version : UInt32)
  /-- The text is no snapshot document at all. -/
  | malformed
  deriving DecidableEq

/-- A malformed document has no message of its own. -/
def SnapshotError.message : SnapshotError → String
  | corrupt cause => "Corrupt save state: " ++ cause.message
  | unsupportedVersion version => s!"Unsupported save state version: v{version}"
  | malformed => ""

end NesConsole
