import NesConsole.Bus
/-!
# Flat memory

64 KiB of memory with no devices, which counts the accesses made to it.
-/
namespace NesConsole

structure FlatMemory where
  bytes : Vector UInt8 0x10000 := .replicate 0x10000 0
  reads : Nat := 0
  writes : Nat := 0

namespace FlatMemory

def get (m : FlatMemory) (address : UInt16) : UInt8 :=
  have : address.toNat < 0x10000 := address.toNat_lt
  m.bytes[address.toNat]

def set (m : FlatMemory) (address : UInt16) (value : UInt8) : FlatMemory :=
  { m with bytes := m.bytes.set address.toNat value address.toNat_lt }

/-- Places bytes from `start` on, wrapping at the top of memory. -/
def load (m : FlatMemory) (start : UInt16) : List UInt8 → FlatMemory
  | [] => m
  | byte :: rest => (m.set start byte).load (start + 1) rest

/-- Memory that holds `program` at `start` and starts there after a reset. -/
def withProgram (start : UInt16) (program : List UInt8) : FlatMemory :=
  (({} : FlatMemory).load start program).load 0xFFFC [start.toUInt8, (start >>> 8).toUInt8]

instance : Bus FlatMemory where
  read m address := (m.get address, { m with reads := m.reads + 1 })
  write m address value :=
    { m with bytes := m.bytes.set address.toNat value address.toNat_lt, writes := m.writes + 1 }

end FlatMemory
end NesConsole
