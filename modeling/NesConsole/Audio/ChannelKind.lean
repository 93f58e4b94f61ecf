/-!
# Kinds of sound channels
-/
namespace NesConsole

inductive ChannelKind where
  | pulse
  | triangle
  | noise
  | dmc
  deriving DecidableEq

namespace ChannelKind

def name : ChannelKind → String
  | pulse => "Pulse"
  | triangle => "Triangle"
  | noise => "Noise"
  | dmc => "Dmc"

/-- The kinds of the five channels, by number. -/
def ofChannel : Vector ChannelKind 5 :=
  #v[pulse, pulse, triangle, noise, dmc]

end ChannelKind
end NesConsole
