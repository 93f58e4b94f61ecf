import NesConsole.Proofs.Exchange
import NesConsole.Proofs.Cartridge.Fits
/-!
# What a host does with a console

A host drives a console by `HostAction`s and sees an answer to each.  `Console.Reachable` is every console that inserting
cartridges and actions lead to, and what every step of a run keeps is kept by a whole run.
-/
namespace NesConsole

/-- What a host can ask of a console. -/
inductive HostAction (π : Type) where
  | step
  | run (budget : Nat)
  | hblank (scanline : UInt16)
  | nmi
  | reset
  | press (pad : Nat) (held : Buttons)
  | pause (paused : Bool)
  | read (address : UInt16)
  | write (address : UInt16) (value : UInt8)
  | writePattern (address : UInt16) (value : UInt8)
  | load (snapshot : Snapshot)
  | setBreakpoints (breakpoints : Breakpoints)
  | setWatchpoints (watchpoints : Watchpoints)
  | attachVideo (video : π)
  /-- Registers put in place as they are, without a check. -/
  | assign (registers : Registers)

namespace HostAction

/-- Whether registers are put in place past every check. -/
def isAssignment {π : Type} : HostAction π → Bool
  | assign _ => true
  | _ => false

end HostAction

inductive Answer where
  | done
  | spent (cycles : UInt32)
  | ended (state : RunState)
  | byte (value : UInt8)
  | refused (error : SnapshotError)
  deriving DecidableEq

namespace Console

variable {π : Type} [VideoUnit π]

/-- Carries out an action.  A refused load leaves the console as it is. -/
def respond (console : Console π) : HostAction π → Answer × Console π
  | .step => (.spent console.step.1, console.step.2)
  | .run budget => (.ended (console.runCycles budget).1, (console.runCycles budget).2)
  | .hblank scanline => (.done, console.hblank scanline)
  | .nmi => (.done, console.nmi)
  | .reset => (.done, console.reset)
  | .press pad held => (.done, console.press pad held)
  | .pause paused => (.done, console.pause paused)
  | .read address => (.byte (console.peek address).1, (console.peek address).2)
  | .write address value => (.done, (console.perform (Exchange.store address value)).2)
  | .writePattern address value => (.done, { console with bus := console.bus.writePattern address value })
  | .load snapshot =>
    match console.load snapshot with
    | .ok console' => (.done, console')
    | .error e => (.refused e, console)
  | .setBreakpoints breakpoints => (.done, { console with cpu := { console.cpu with breakpoints } })
  | .setWatchpoints watchpoints => (.done, { console with cpu := { console.cpu with watchpoints } })
  | .attachVideo video => (.done, console.attachVideo video)
  | .assign registers => (.done, { console with cpu := { console.cpu with registers } })

/-- What a host sees of a run: after each action the answer and a snapshot. -/
def transcript : Console π → List (HostAction π) → List (Answer × Snapshot)
  | _, [] => []
  | console, action :: actions =>
    let (answer, console) := console.respond action
    (answer, console.save) :: console.transcript actions

/-- The consoles that allowed actions lead to, from power-on, with the source of the cartridge last inserted. -/
inductive Reachable (allowed : HostAction π → Prop) : Option CartridgeSource → Console π → Prop where
  | new (video : π) (debug : Bool) : Reachable allowed none (initial video debug)
  | insert {inserted : Option CartridgeSource} {console : Console π} {source : CartridgeSource} {mirroring : Mirroring}
      {cartridge : Cartridge} (h : Reachable allowed inserted console)
      (hc : Cartridge.ofImages source.prg source.chr source.number mirroring = .ok cartridge) :
      Reachable allowed (some source) (console.insert cartridge)
  | act {source : Option CartridgeSource} {console : Console π} {action : HostAction π}
      (h : Reachable allowed source console) (ha : allowed action) :
      Reachable allowed source (console.respond action).2

theorem Reachable.mono {allowed allowed' : HostAction π → Prop} (hsub : ∀ a, allowed a → allowed' a)
    {source : Option CartridgeSource} {console : Console π} (h : Reachable allowed source console) :
    Reachable allowed' source console := by
  induction h with
  | new video debug => exact .new video debug
  | insert _ hc ih => exact .insert ih hc
  | act _ ha ih => exact .act ih (hsub _ ha)

theorem takeIrq_of_clear {console : Console π} (h : console.irq = false) : console.takeIrq = (0, console) := by
  unfold takeIrq
  rw [if_neg (by rw [h]; decide)]

theorem takeIrq_of_raised {console : Console π} (h : console.irq = true) :
    console.takeIrq =
      let requested := console.cpu.requestIrq console.bus
      (if requested.1 then 7 else 0,
        { cpu := requested.2.1, bus := requested.2.2, irq := !requested.1, cycles := console.cycles }) := by
  unfold takeIrq
  rw [if_pos h]
  show (_, { cpu := _, bus := _, irq := console.irq && _, cycles := _ : Console π }) = _
  rw [h]
  rfl

theorem step_of_paused {console : Console π} (h : console.cpu.paused = true) : console.step = (0, console) :=
  if_pos h

theorem step_of_running {console : Console π} (h : console.cpu.paused = false) :
    console.step =
      let taken := console.takeIrq
      let executed := taken.2.cpu.step taken.2.bus
      let spent := taken.1 + UInt32.ofNat executed.1 + executed.2.2.stall
      (spent, { cpu := executed.2.1, bus := { executed.2.2 with stall := 0 }, irq := taken.2.irq,
                cycles := taken.2.cycles + spent.toUInt64 }) :=
  if_neg (by rw [h]; decide)

/-- **What a step keeps, a run keeps.** -/
theorem runFrom_keeps {P : Console π → Prop} (hstep : ∀ console, P console → P console.step.2) (budget steps : Nat)
    (spent : Nat) {console : Console π} (h : P console) : P (runFrom budget steps spent console).2 := by
  induction steps generalizing spent console with
  | zero => exact h
  | succ steps ih =>
    unfold runFrom
    split
    · exact h
    · split
      · exact h
      · exact ih _ (hstep _ h)

end Console

namespace Keeps

variable {π : Type} [VideoUnit π] {P : ConsoleBus π → Prop} {console : Console π}

theorem takeIrq (k : Keeps P) (h : P console.bus) : P console.takeIrq.2.bus := by
  unfold Console.takeIrq
  split
  · exact k.requestIrq console.cpu h
  · exact h

/-- **A console's step keeps what the accesses keep**, if handing the stall over keeps it too. -/
theorem consoleStep (k : Keeps P) (hstall : ∀ bus, P bus → P bus.takeStall.2) (h : P console.bus) :
    P console.step.2.bus := by
  unfold Console.step
  split
  · exact h
  · exact hstall _ (k.step console.takeIrq.2.cpu (k.takeIrq h))

theorem runCycles (k : Keeps P) (hstall : ∀ bus, P bus → P bus.takeStall.2) (budget : Nat) (h : P console.bus) :
    P (console.runCycles budget).2.bus :=
  Console.runFrom_keeps (P := fun console => P console.bus) (fun _ h => k.consoleStep hstall h) budget _ 0 h

end Keeps
end NesConsole
