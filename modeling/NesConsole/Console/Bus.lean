import NesConsole.Audio.Basic
import NesConsole.Bus
import NesConsole.Cartridge.Basic
import NesConsole.Console.VideoUnit
/-!
# The console's bus

The address space a processor sees in a console:

* `$0000` to `$1FFF`: 2 KiB of work RAM, repeated every `$0800`
* `$2000` to `$3FFF`: the video registers, repeated every 8 bytes
* `$4000` to `$401F`: sound and joypads, but `$4014`, which starts a sprite transfer
* `$4020` and above: the cartridge

A read leaves its byte on the bus, and `$4014` reads that byte back.  Writes that the cartridge's board claims go to the
board, wherever they point.
-/
namespace NesConsole

abbrev workRamSize : Nat := 0x0800

structure ConsoleBus (π : Type) where
  ram : Vector UInt8 workRamSize := .replicate workRamSize 0
  video : π
  apu : Apu := {}
  cartridge : Option Cartridge := none
  lastRead : UInt8 := 0
  /-- Cycles owed to sprite transfers and not yet collected, counted in a word. -/
  stall : UInt32 := 0

namespace ConsoleBus

variable {π : Type}

/-- Cycles the processor waits for a sprite transfer. -/
def transferCycles : UInt32 := 513

def ramIndex (address : UInt16) : Fin workRamSize :=
  ⟨address.toNat % workRamSize, Nat.mod_lt _ (by decide)⟩

def videoRegister (address : UInt16) : Fin 8 :=
  ⟨address.toNat % 8, Nat.mod_lt _ (by decide)⟩

variable [VideoUnit π]

/-- The byte at an address, and the devices after it was read. -/
@[specialize]
def fetch (bus : ConsoleBus π) (address : UInt16) : UInt8 × ConsoleBus π :=
  if address < 0x2000 then
    (bus.ram[ramIndex address], bus)
  else if address < 0x4000 then
    let (value, video) := VideoUnit.readRegister bus.video (videoRegister address)
    (value, { bus with video })
  else if address = 0x4014 then
    (bus.lastRead, bus)
  else if address < 0x4020 then
    let (value, apu) := bus.apu.read address
    (value, { bus with apu })
  else
    (bus.cartridge.elim 0 (·.read address), bus)

@[specialize]
def read (bus : ConsoleBus π) (address : UInt16) : UInt8 × ConsoleBus π :=
  let (value, bus) := bus.fetch address
  (value, { bus with lastRead := value })

@[specialize]
def readBlock (start : UInt16) : (count : Nat) → ConsoleBus π → Vector UInt8 count × ConsoleBus π
  | 0, bus => (#v[], bus)
  | count + 1, bus =>
    let (block, bus) := readBlock start count bus
    let (value, bus) := bus.read (start + UInt16.ofNat count)
    (block.push value, bus)

/-- Copies a page, read as a processor reads it, into sprite memory. -/
@[specialize]
def transferSprites (bus : ConsoleBus π) (page : UInt8) : ConsoleBus π :=
  let (block, bus) := readBlock (page.toUInt16 <<< 8) 256 bus
  { bus with video := VideoUnit.writeSprites bus.video block, stall := bus.stall + transferCycles }

/-- A write that no board claims. -/
@[specialize]
def store (bus : ConsoleBus π) (address : UInt16) (value : UInt8) : ConsoleBus π :=
  if address < 0x2000 then
    { bus with ram := bus.ram.set (ramIndex address) value }
  else if address < 0x4000 then
    { bus with video := VideoUnit.writeRegister bus.video (videoRegister address) value }
  else if address = 0x4014 then
    bus.transferSprites value
  else if address < 0x4020 then
    { bus with apu := bus.apu.write address value }
  else
    { bus with cartridge := bus.cartridge.map (·.write address value) }

/-- Whether the cartridge's board takes writes to `address`. -/
def claims (bus : ConsoleBus π) (address : UInt16) : Bool :=
  bus.cartridge.elim false (·.claims address)

@[specialize]
def write (bus : ConsoleBus π) (address : UInt16) (value : UInt8) : ConsoleBus π :=
  if bus.claims address then
    { bus with cartridge := bus.cartridge.map (·.writeBoard address value) }
  else
    bus.store address value

instance : Bus (ConsoleBus π) where
  read := read
  write := write

omit [VideoUnit π]

/-- Hands over the cycles owed. -/
def takeStall (bus : ConsoleBus π) : UInt32 × ConsoleBus π :=
  (bus.stall, { bus with stall := 0 })

/-- Clears work RAM and resets the sound unit and the cartridge. -/
def reset (bus : ConsoleBus π) : ConsoleBus π where
  video := bus.video
  apu := bus.apu.reset
  cartridge := bus.cartridge.map Cartridge.reset

def insert (bus : ConsoleBus π) (cartridge : Cartridge) : ConsoleBus π :=
  { bus with cartridge := some cartridge }

/-- Without a cartridge, as a horizontal board. -/
def mirroring (bus : ConsoleBus π) : Mirroring :=
  bus.cartridge.elim .horizontal Cartridge.mirroring

def readPattern (bus : ConsoleBus π) (address : UInt16) : UInt8 :=
  bus.cartridge.elim 0 (·.readPattern address)

def writePattern (bus : ConsoleBus π) (address : UInt16) (value : UInt8) : ConsoleBus π :=
  { bus with cartridge := bus.cartridge.map (·.writePattern address value) }

/-- One scanline on the cartridge.  Tells whether its board asks for an interrupt. -/
def hblankCartridge (bus : ConsoleBus π) (scanline : UInt16) : Bool × ConsoleBus π :=
  match bus.cartridge with
  | none => (false, bus)
  | some cartridge =>
    let (fired, cartridge) := cartridge.hblank scanline
    (fired, { bus with cartridge := some cartridge })

def hblank (bus : ConsoleBus π) (scanline : UInt16) : AudioRequests × Bool × ConsoleBus π :=
  let (audio, apu) := bus.apu.hblank scanline
  let (board, bus) := { bus with apu }.hblankCartridge scanline
  (audio, board, bus)

def loadRam (bus : ConsoleBus π) (image : Array UInt8) : Except Corruption (ConsoleBus π) :=
  if h : image.size = workRamSize then .ok { bus with ram := ⟨image, h⟩ }
  else .error (.workRamImage image.size workRamSize)

end ConsoleBus
end NesConsole
