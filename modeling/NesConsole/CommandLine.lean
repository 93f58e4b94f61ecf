import NesConsole.Snapshot.Encoding
/-!
# The command line

Runs a cartridge from image files for a number of steps or frames and prints a snapshot, after the last executed
instructions if they are asked for.  What a run prints is a `Report`; how files are read is a parameter.
-/
namespace NesConsole
namespace CommandLine

/-! ## Arguments -/

inductive RunMode where
  | steps (count : Nat)
  | frames (count : Nat)

structure Options where
  prgPath : String
  /-- None for pattern RAM. -/
  chrPath : Option String
  board : UInt16
  mode : RunMode
  logLines : Nat

inductive UsageError where
  | invalid (what value : String)
  | unexpected (argument : String)
  | missingProgram
  | stepsAndFrames

def UsageError.message : UsageError → String
  | invalid what value => "Invalid " ++ what ++ ": " ++ value
  | unexpected argument => "Unexpected argument: " ++ argument
  | missingProgram => "Missing PRG path."
  | stepsAndFrames => "Provide either --steps or --frames, not both."

def usage : List String :=
  ["Usage: nes-step <prg_path> [--steps <count> | --frames <count>] [options]",
    "Options:",
    "  -s, --steps <count>     Instructions to execute (default: 1)",
    "  -f, --frames <count>    Frames to run, with per-scanline ticks and vblank NMI",
    "  -m, --mapper <number>   Board number (default: 0)",
    "  -c, --chr <path>        CHR image (default: 8 KiB CHR-RAM)",
    "  -l, --log <count>       Print the last <count> executed instructions"]

def digitValue? (base : Nat) (c : Char) : Option Nat :=
  let value :=
    if '0' ≤ c ∧ c ≤ '9' then some (c.toNat - '0'.toNat)
    else if 'a' ≤ c ∧ c ≤ 'z' then some (c.toNat - 'a'.toNat + 10)
    else if 'A' ≤ c ∧ c ≤ 'Z' then some (c.toNat - 'A'.toNat + 10)
    else none
  value.filter (· < base)

/-- Digits of a base, one or more, behind an optional plus sign; the number must fit 64 bits. -/
def parseDigits (base : Nat) (cs : List Char) : Option Nat := do
  let cs := match cs with
    | '+' :: rest => rest
    | cs => cs
  if cs.isEmpty then
    none
  else
    let n ← cs.foldlM (fun n c => return n * base + (← digitValue? base c)) 0
    if n < UInt64.size then some n else none

/-- A count: hexadecimal behind `0x` or `0X`, decimal otherwise. -/
def parseCount (value : String) : Option Nat :=
  match value.toList with
  | '0' :: 'x' :: rest | '0' :: 'X' :: rest => parseDigits 16 rest
  | cs => parseDigits 10 cs

/-- What the arguments read so far have set. -/
structure Draft where
  prgPath : Option String := none
  chrPath : Option String := none
  board : UInt16 := 0
  steps : Option Nat := none
  frames : Option Nat := none
  logLines : Nat := 0

def count (what value : String) : Except UsageError Nat :=
  match parseCount value with
  | some n => .ok n
  | none => .error (.invalid what value)

def boardNumber (value : String) : Except UsageError UInt16 := do
  let n ← count "mapper" value
  if n < UInt16.size then .ok (UInt16.ofNat n) else .error (.invalid "mapper" value)

inductive Setting where
  | steps
  | frames
  | board
  | chr
  | log

def Setting.ofArgument? : String → Option Setting
  | "-s" | "--steps" => some steps
  | "-f" | "--frames" => some frames
  | "-m" | "--mapper" => some board
  | "-c" | "--chr" => some chr
  | "-l" | "--log" => some log
  | _ => none

namespace Draft

/-- Takes an option's value over; a value that is missing counts as empty, but as no path. -/
def set (draft : Draft) (setting : Setting) (value : Option String) : Except UsageError Draft := do
  match setting with
  | .steps => return { draft with steps := some (← count "steps" (value.getD "")) }
  | .frames => return { draft with frames := some (← count "frames" (value.getD "")) }
  | .board => return { draft with board := ← boardNumber (value.getD "") }
  | .chr => return { draft with chrPath := value }
  | .log => return { draft with logLines := ← count "log" (value.getD "") }

/-- Reads the arguments in order, up to the first that is wrong.  An option given twice counts the second time. -/
def read (draft : Draft) : List String → Except UsageError Draft
  | [] => .ok draft
  | argument :: rest =>
    match Setting.ofArgument? argument, rest with
    | some setting, [] => draft.set setting none
    | some setting, value :: rest => do
      let draft ← draft.set setting (some value)
      draft.read rest
    | none, rest =>
      match draft.prgPath with
      | none => read { draft with prgPath := some argument } rest
      | some _ => .error (.unexpected argument)

end Draft

def Draft.finish (draft : Draft) : Except UsageError Options :=
  match draft.prgPath, draft.frames, draft.steps with
  | none, _, _ => .error .missingProgram
  | some _, some _, some _ => .error .stepsAndFrames
  | some prgPath, some count, none =>
    .ok { prgPath, chrPath := draft.chrPath, board := draft.board, mode := .frames count, logLines := draft.logLines }
  | some prgPath, none, steps =>
    .ok
      { prgPath, chrPath := draft.chrPath, board := draft.board, mode := .steps (steps.getD 1)
        logLines := draft.logLines }

def parse (arguments : List String) : Except UsageError Options := do
  (← ({} : Draft).read arguments).finish

/-! ## Running -/

/-- Processor cycles per scanline, rounded up. -/
def cyclesPerScanline : Nat := 114

def scanlinesPerFrame : Nat := 262

variable {π : Type} [VideoUnit π]

/-- Up to `count` steps, ending early when the console pauses. -/
@[specialize]
def runSteps : (count : Nat) → Console π → Console π
  | 0, console => console
  | count + 1, console => if console.cpu.paused then console else runSteps count console.step.2

/-- Runs the last `count` scanlines of a frame.  Each gets its cycles and is then reported, with the non-maskable
interrupt where vertical blank starts.  Tells whether the console paused, which ends the run. -/
@[specialize]
def runLines : (count : Nat) → Console π → Bool × Console π
  | 0, console => (false, console)
  | count + 1, console =>
    match console.runCycles cyclesPerScanline with
    | (.paused _, console) => (true, console)
    | (.completed _, console) =>
      let scanline := UInt16.ofNat (scanlinesPerFrame - (count + 1))
      let console := console.hblank scanline
      runLines count (if scanline = Apu.vblankScanline then console.nmi else console)

@[specialize]
def runFrames : (count : Nat) → Console π → Console π
  | 0, console => console
  | count + 1, console =>
    match runLines scanlinesPerFrame console with
    | (true, console) => console
    | (false, console) => runFrames count console

def run (mode : RunMode) (console : Console VideoLatch) : Console VideoLatch :=
  match mode with
  | .steps count => runSteps count console
  | .frames count => runFrames count console

/-! ## Reporting -/

structure Report where
  code : Nat
  output : String := ""
  errors : String := ""

def lines (texts : List String) : String :=
  String.join (texts.map (· ++ "\n"))

def failure (texts : List String) : Report := { code := 2, errors := lines texts }

/-- The history asked for, the snapshot, and a fault that stopped the processor. -/
def report (logLines : Nat) (console : Console VideoLatch) : Report :=
  let output := lines (console.cpu.recentSteps logLines ++ [console.save.toText])
  match console.cpu.fault with
  | none => { code := 0, output }
  | some fault => { code := 1, output, errors := lines ["CPU error: " ++ fault.message] }

def runImages (options : Options) (prg chr : Array UInt8) : Report :=
  match Cartridge.ofImages prg chr options.board .horizontal with
  | .error error => failure ["Cartridge error: " ++ error.message]
  | .ok cartridge =>
    let console := Console.initial ({} : VideoLatch) (0 < options.logLines)
    report options.logLines (run options.mode (console.insert cartridge))

/-- The whole program, for any way of reading a file to its bytes or to the reason why it cannot be read. -/
def execute {m : Type → Type} [Monad m] (readFile : String → m (Except String (Array UInt8))) (arguments : List String) :
    m Report := do
  match parse arguments with
  | .error error => return failure (error.message :: usage)
  | .ok options =>
    match ← readFile options.prgPath with
    | .error reason => return failure ["Failed to read '" ++ options.prgPath ++ "': " ++ reason]
    | .ok prg =>
      match options.chrPath with
      | none => return runImages options prg #[]
      | some path =>
        match ← readFile path with
        | .error reason => return failure ["Failed to read '" ++ path ++ "': " ++ reason]
        | .ok chr => return runImages options prg chr

end CommandLine
end NesConsole
