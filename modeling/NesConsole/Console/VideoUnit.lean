/-!
# Video units

What a console's bus needs of a picture unit: eight registers that can be read and written, and a transfer of 256 bytes
into sprite memory.  Rendering is the host's, which plugs in its own unit.  Without one the console uses a `VideoLatch`.
-/
namespace NesConsole

class VideoUnit (π : Type) where
  readRegister : π → Fin 8 → UInt8 × π
  writeRegister : π → Fin 8 → UInt8 → π
  /-- The 256 bytes of the page that was copied. -/
  writeSprites : π → Vector UInt8 256 → π

/-- Stands in for a picture unit: every register reads back the byte last written to any of them. -/
structure VideoLatch where
  value : UInt8 := 0
  deriving DecidableEq

instance : VideoUnit VideoLatch where
  readRegister latch _ := (latch.value, latch)
  writeRegister _ _ value := { value }
  writeSprites latch _ := latch

end NesConsole
