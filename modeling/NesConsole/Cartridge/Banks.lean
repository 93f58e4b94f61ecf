import NesConsole.Cartridge.Mirroring
import NesConsole.Snapshot.Error
/-!
# The bank table

Which part of a cartridge's images each window of address space shows.  Program space `$8000` to `$FFFF` is four windows
of 8 KiB and pattern space `$0000` to `$1FFF` eight of 1 KiB.  Boards select banks in units of their own; a wide
selection is a row of narrow ones, and bank numbers wrap modulo the image.
-/
namespace NesConsole

def prgBankSize : Nat := 0x2000

def chrBankSize : Nat := 0x0400

structure BankState where
  prg : Vector Nat 4
  chr : Vector Nat 8
  mirroring : Mirroring
  deriving DecidableEq

structure Banks where
  /-- Program banks of 8 KiB in the image, at least one. -/
  prgCount : Nat
  /-- Pattern banks of 1 KiB in the image, at least one. -/
  chrCount : Nat
  prg : Vector Nat 4
  chr : Vector Nat 8
  mirroring : Mirroring
  deriving DecidableEq

namespace Banks

/-! ## Selecting -/

def selectPrg8 (b : Banks) (slot bank : Nat) : Banks :=
  { b with prg := b.prg.set (slot % 4) (bank % b.prgCount) (Nat.mod_lt _ (by decide)) }

/-- Slot 0 is `$8000`, slot 1 is `$C000`. -/
def selectPrg16 (b : Banks) (slot bank : Nat) : Banks :=
  let first := slot % 2 * 2
  (b.selectPrg8 first (bank * 2)).selectPrg8 (first + 1) (bank * 2 + 1)

def selectPrg32 (b : Banks) (bank : Nat) : Banks :=
  (List.range 4).foldl (fun b slot => b.selectPrg8 slot (bank * 4 + slot)) b

def selectChr1 (b : Banks) (slot bank : Nat) : Banks :=
  { b with chr := b.chr.set (slot % 8) (bank % b.chrCount) (Nat.mod_lt _ (by decide)) }

/-- Slots count windows of 2 KiB. -/
def selectChr2 (b : Banks) (slot bank : Nat) : Banks :=
  let first := slot % 4 * 2
  (b.selectChr1 first (bank * 2)).selectChr1 (first + 1) (bank * 2 + 1)

/-- Slot 0 is `$0000`, slot 1 is `$1000`. -/
def selectChr4 (b : Banks) (slot bank : Nat) : Banks :=
  let first := slot % 2 * 4
  (List.range 4).foldl (fun b i => b.selectChr1 (first + i) (bank * 4 + i)) b

def selectChr8 (b : Banks) (bank : Nat) : Banks :=
  (List.range 8).foldl (fun b slot => b.selectChr1 slot (bank * 8 + slot)) b

def setMirroring (b : Banks) (mirroring : Mirroring) : Banks := { b with mirroring }

/-- The table of a cartridge with images of these sizes: every window shows the start of its image. -/
def initial (prgSize chrSize : Nat) (mirroring : Mirroring) : Banks :=
  let empty : Banks :=
    { prgCount := max (prgSize / prgBankSize) 1, chrCount := max (chrSize / chrBankSize) 1
      prg := .replicate 4 0, chr := .replicate 8 0, mirroring }
  (empty.selectPrg32 0).selectChr8 0

/-- Program banks of 16 KiB, at least one. -/
def prgCount16 (b : Banks) : Nat := max (b.prgCount / 2) 1

/-! ## Looking up -/

def prgBank (b : Banks) (slot : Nat) : Nat :=
  have : slot % 4 < 4 := Nat.mod_lt _ (by decide)
  b.prg[slot % 4]

def chrBank (b : Banks) (slot : Nat) : Nat :=
  have : slot % 8 < 8 := Nat.mod_lt _ (by decide)
  b.chr[slot % 8]

def prgOffset (b : Banks) (address : UInt16) : Nat :=
  let inSpace := address.toNat % 0x8000
  b.prgBank (inSpace / prgBankSize) * prgBankSize + inSpace % prgBankSize

def chrOffset (b : Banks) (address : UInt16) : Nat :=
  let inSpace := address.toNat % 0x2000
  b.chrBank (inSpace / chrBankSize) * chrBankSize + inSpace % chrBankSize

/-! ## Snapshots -/

def save (b : Banks) : BankState where
  prg := b.prg
  chr := b.chr
  mirroring := b.mirroring

/-- Takes a saved table over, unless it names a bank the images have not; the first such bank is reported. -/
def load (b : Banks) (state : BankState) : Except Corruption Banks :=
  match state.prg.toList.find? (b.prgCount ≤ ·), state.chr.toList.find? (b.chrCount ≤ ·) with
  | some bank, _ => .error (.prgBank bank b.prgCount)
  | none, some bank => .error (.chrBank bank b.chrCount)
  | none, none => .ok { b with prg := state.prg, chr := state.chr, mirroring := state.mirroring }

end Banks
end NesConsole
