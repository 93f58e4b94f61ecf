import NesConsole.CommandLine
/-!
# Entry point

Reads image files, prints the report and ends with its exit code.
-/
namespace NesConsole

/-- The system's own words for why a file cannot be read. -/
def readFailure : IO.Error → String
  | .noFileOrDirectory _ code details | .noSuchThing _ code details | .permissionDenied _ code details
  | .inappropriateType _ code details | .invalidArgument _ code details | .resourceExhausted _ code details
  | .hardwareFault code details | .otherError code details => details ++ " (os error " ++ toString code ++ ")"
  | error => toString error

def readImage (path : String) : IO (Except String (Array UInt8)) := do
  try
    let file ← IO.FS.Handle.mk path .read
    return .ok (← file.readBinToEnd).data
  catch error =>
    return .error (readFailure error)

end NesConsole

def main (arguments : List String) : IO UInt32 := do
  let report ← NesConsole.CommandLine.execute NesConsole.readImage arguments
  IO.print report.output
  IO.eprint report.errors
  return UInt32.ofNat report.code
