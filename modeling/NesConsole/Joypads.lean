/-!
# Joypads

Two pads, each with the buttons now held and a shift register that a strobe fills with them.  Directions that oppose
each other cancel out.
-/
namespace NesConsole

/-- Buttons held on a pad, one bit each: A, B, Select, Start, Up, Down, Left, Right from bit 0. -/
abbrev Buttons := UInt8

namespace Buttons

def vertical : Buttons := 0x30

def horizontal : Buttons := 0xC0

def dropPair (pair held : Buttons) : Buttons :=
  if held &&& pair = pair then held &&& ~~~pair else held

/-- What a pad reports of the buttons held. -/
def effective (held : Buttons) : Buttons :=
  dropPair vertical (dropPair horizontal held)

end Buttons

structure Joypad where
  held : Buttons := 0
  shiftRegister : UInt8 := 0
  deriving DecidableEq

namespace Joypad

def press (pad : Joypad) (held : Buttons) : Joypad := { pad with held := held.effective }

def latch (pad : Joypad) : Joypad := { pad with shiftRegister := pad.held }

/-- The next bit, button A first; 0 after the eighth. -/
def shift (pad : Joypad) : UInt8 × Joypad :=
  (pad.shiftRegister &&& 1, { pad with shiftRegister := pad.shiftRegister >>> 1 })

end Joypad

structure Joypads where
  first : Joypad := {}
  second : Joypad := {}
  deriving DecidableEq

namespace Joypads

/-- Stores the buttons of pad 0 or 1; there are no others. -/
def press (pads : Joypads) (number : Nat) (held : Buttons) : Joypads :=
  match number with
  | 0 => { pads with first := pads.first.press held }
  | 1 => { pads with second := pads.second.press held }
  | _ => pads

def held (pads : Joypads) (number : Nat) : Buttons :=
  match number with
  | 0 => pads.first.held
  | 1 => pads.second.held
  | _ => 0

def latch (pads : Joypads) : Joypads where
  first := pads.first.latch
  second := pads.second.latch

def shift (pads : Joypads) (number : Nat) : UInt8 × Joypads :=
  match number with
  | 0 => let (bit, first) := pads.first.shift; (bit, { pads with first })
  | 1 => let (bit, second) := pads.second.shift; (bit, { pads with second })
  | _ => (0, pads)

end Joypads
end NesConsole
