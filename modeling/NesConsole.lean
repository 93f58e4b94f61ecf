import NesConsole.Main
import NesConsole.FlatMemory
import NesConsole.Snapshot.Decoding
import NesConsole.Proofs.Snapshot.Accepted
import NesConsole.Proofs.Snapshot.InPlace
import NesConsole.Proofs.Audio.Genuine
import NesConsole.Proofs.Cartridge.Fits
import NesConsole.Proofs.Console.Genuine
import NesConsole.Proofs.Json.Records
import NesConsole.Proofs.Json.RoundTrip
import NesConsole.Proofs.Snapshot.Loadable
import NesConsole.Proofs.Snapshot.Resume
import NesConsole.Proofs.Snapshot.Text
import NesConsole.Proofs.Accesses
import NesConsole.Proofs.Processor.Listing
import NesConsole.Proofs.Processor.Forms
import NesConsole.Proofs.Processor.Pausing
import NesConsole.Proofs.Console.Transfers
import NesConsole.Proofs.Console.Run
import NesConsole.Proofs.Console.InterruptLine
import NesConsole.Proofs.Cartridge.Nrom
import NesConsole.Proofs.Console.Lockstep
import NesConsole.Proofs.Cartridge.Windows
import NesConsole.Proofs.Console.Logging
import NesConsole.Proofs.Processor.BreakBit
import NesConsole.Proofs.Audio.Checked
import NesConsole.Proofs.Cartridge.Checked
import NesConsole.Proofs.Console.Checked
import NesConsole.Proofs.Cartridge.Selections
import NesConsole.Proofs.Cartridge.Histories
import NesConsole.Proofs.Cartridge.SerialPort
import NesConsole.Proofs.Cartridge.RestoredPort
import NesConsole.Proofs.Cartridge.BankRegisters
import NesConsole.Proofs.Cartridge.BankArithmetic
import NesConsole.Proofs.Cartridge.PowerOn
import NesConsole.Proofs.Cartridge.VectorWindow
import NesConsole.Proofs.Cartridge.Latches
import NesConsole.Proofs.Audio.Histories
import NesConsole.Proofs.Audio.Isolation
import NesConsole.Proofs.Audio.InterruptFlags
import NesConsole.Proofs.Audio.PadPorts
import NesConsole.Proofs.Cartridge.ScanlineCounter
import NesConsole.Proofs.Cartridge.Memory
import NesConsole.Proofs.Audio.Decay
import NesConsole.Proofs.Audio.SweepRate
import NesConsole.Proofs.Audio.SweepSilence
import NesConsole.Proofs.Audio.Lifetime
import NesConsole.Proofs.Audio.SamplePlayback
import NesConsole.Proofs.Console.Destinations
import NesConsole.Proofs.Processor.Footprint
import NesConsole.Proofs.Processor.Faults
import NesConsole.Proofs.Processor.ListingAgreement
import NesConsole.Proofs.Processor.InstructionText
import NesConsole.Proofs.Processor.StepTrace
import NesConsole.Proofs.Processor.CarryChain
import NesConsole.Proofs.Console.Nesting
import NesConsole.Proofs.Console.Breakpoints
