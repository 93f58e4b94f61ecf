/-!
# Nametable mirroring
-/
namespace NesConsole

inductive Mirroring where
  | vertical
  | horizontal
  | fourScreen
  | single0
  | single1
  deriving DecidableEq

namespace Mirroring

def name : Mirroring → String
  | vertical => "Vertical"
  | horizontal => "Horizontal"
  | fourScreen => "FourScreen"
  | single0 => "Single0"
  | single1 => "Single1"

def all : List Mirroring := [vertical, horizontal, fourScreen, single0, single1]

def ofName? (name : String) : Option Mirroring :=
  all.find? (·.name = name)

end Mirroring
end NesConsole
