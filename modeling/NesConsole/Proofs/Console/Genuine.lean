import NesConsole.Proofs.Audio.Genuine
import NesConsole.Proofs.Console.Destinations
import NesConsole.Proofs.Host
import NesConsole.Proofs.Processor.Reserved
/-!
# Genuine consoles

What holds of every console a host can reach: its channels are genuine, its cartridge fits what was inserted, and its
registers have the reserved bit unless the host has put other ones in place.  Reads and writes keep the first two, so
everything a processor or a host does keeps them.
-/
namespace NesConsole

variable {π : Type}

/-- The devices hold nothing that accesses and ticks could not have put there. -/
structure ConsoleBus.Genuine (source : Option CartridgeSource) (bus : ConsoleBus π) : Prop where
  channels : bus.apu.channels.Genuine
  cartridge : Option.Rel Cartridge.Fits source bus.cartridge

theorem Cartridge.Fits.map {f : Cartridge → Cartridge} (hf : ∀ source c, Fits source c → Fits source (f c))
    {source : Option CartridgeSource} {inserted : Option Cartridge} (h : Option.Rel Fits source inserted) :
    Option.Rel Fits source (inserted.map f) := by
  cases h with
  | some h => exact .some (hf _ _ h)
  | none => exact .none

namespace ConsoleBus

variable {source : Option CartridgeSource} {bus : ConsoleBus π}

namespace Genuine

theorem reset (h : bus.Genuine source) : bus.reset.Genuine source where
  channels := Channels.Genuine.initial
  cartridge := Cartridge.Fits.map (fun _ _ h => h.reset) h.cartridge

theorem takeStall (h : bus.Genuine source) : bus.takeStall.2.Genuine source := { h with }

theorem writePattern (h : bus.Genuine source) (address : UInt16) (value : UInt8) :
    (bus.writePattern address value).Genuine source :=
  { h with cartridge := Cartridge.Fits.map (fun _ _ h => h.writePattern address value) h.cartridge }

theorem hblank (h : bus.Genuine source) (scanline : UInt16) : (bus.hblank scanline).2.2.Genuine source := by
  have hticked : ConsoleBus.Genuine source { bus with apu := (bus.apu.hblank scanline).2 } :=
    { h with channels := Apu.hblank_genuine h.channels scanline }
  show (ConsoleBus.hblankCartridge _ scanline).2.Genuine source
  unfold ConsoleBus.hblankCartridge
  split
  · exact hticked
  · next c hc =>
    have hcartridge := h.cartridge
    rw [show bus.cartridge = some c from hc] at hcartridge
    exact ⟨hticked.channels, Cartridge.Fits.map (f := fun c => (c.hblank scanline).2) (fun _ _ h => h.hblank scanline)
      hcartridge⟩

end Genuine

variable [VideoUnit π]

theorem Genuine.read (h : bus.Genuine source) (address : UInt16) : (bus.read address).2.Genuine source := by
  have hfetch : (bus.fetch address).2.Genuine source := by
    unfold fetch
    split
    · exact h
    · split
      · exact { h with }
      · split
        · exact h
        · split
          · exact { h with channels := (Apu.read_channels bus.apu address).symm ▸ h.channels }
          · exact h
  exact { hfetch with }

theorem Genuine.afterReads (h : bus.Genuine source) (page : UInt8) (count : Nat) :
    (bus.afterReads page count).Genuine source := by
  induction count with
  | zero => exact h
  | succ count ih => exact ih.read _

theorem Genuine.write (h : bus.Genuine source) (address : UInt16) (value : UInt8) :
    (Bus.write bus address value).Genuine source := by
  rw [write_eq]
  cases bus.destination address with
  | board => exact { h with cartridge := Cartridge.Fits.map (fun _ _ h => h.writeBoard address value) h.cartridge }
  | workRam | video | nowhere => exact { h with }
  | sprites =>
    have hread := h.afterReads value 256
    rw [transferSprites_eq]
    generalize bus.afterReads value 256 = read at hread ⊢
    exact { hread with }
  | sound => exact { h with channels := Apu.write_genuine h.channels address value }
  | prgRam index => exact { h with cartridge := Cartridge.Fits.map (fun _ _ h => h.setPrgRam index value) h.cartridge }

/-- **Accesses keep the devices genuine.** -/
theorem genuine_keeps (source : Option CartridgeSource) : Keeps fun bus : ConsoleBus π => bus.Genuine source where
  read _ address h := h.read address
  write _ address value h := h.write address value

end ConsoleBus

namespace Console

variable {source : Option CartridgeSource} {console : Console π}

/-- A loaded console has the devices of the snapshot. -/
theorem load_genuine {console' : Console π} {s : Snapshot} (h : console.bus.Genuine source)
    (hl : console.load s = .ok console') : console'.bus.Genuine source := by
  obtain ⟨-, hl⟩ := load_ok hl
  obtain ⟨-, hs, cartridge, apu, hc, ha, rfl⟩ := loadContents_ok hl
  refine ⟨Apu.load_genuine ha, ?_⟩
  have hinserted := h.cartridge
  rcases loadCartridge_ok hc with ⟨hnone, -, rfl⟩ | ⟨c, state, c', hsome, -, rfl, hload⟩
  · rw [hnone] at hinserted
    exact hinserted
  · rw [hsome] at hinserted
    cases hinserted with
    | some hfits => exact .some (hfits.load hload)

theorem load_reserved {console' : Console π} {s : Snapshot} (hl : console.load s = .ok console') :
    console'.cpu.registers.Reserved := by
  obtain ⟨-, hl⟩ := load_ok hl
  obtain ⟨hcheck, -, -, -, -, -, rfl⟩ := loadContents_ok hl
  unfold Registers.check at hcheck
  split at hcheck
  · assumption
  · cases hcheck

variable [VideoUnit π]

/-- **Whatever a host does keeps the devices genuine.** -/
theorem respond_genuine (h : console.bus.Genuine source) (action : HostAction π) :
    (console.respond action).2.bus.Genuine source := by
  have k : Keeps fun bus : ConsoleBus π => bus.Genuine source := ConsoleBus.genuine_keeps source
  cases action with
  | step => exact k.consoleStep (fun _ h => h.takeStall) h
  | run budget => exact k.runCycles (fun _ h => h.takeStall) budget h
  | hblank scanline => exact h.hblank scanline
  | nmi => exact k.nmi console.cpu h
  | reset => exact k.reset console.cpu h.reset
  | press | attachVideo => exact { h with }
  | pause | setBreakpoints | setWatchpoints | assign => exact h
  | read address => exact k.perform (Exchange.byte address) h
  | write address value => exact k.perform (Exchange.store address value) h
  | writePattern address value => exact h.writePattern address value
  | load s =>
    simp only [respond]
    split
    · next hl => exact load_genuine h hl
    · exact h

theorem takeIrq_reserved (h : console.cpu.registers.Reserved) : console.takeIrq.2.cpu.registers.Reserved := by
  unfold takeIrq
  split
  · exact Processor.requestIrq_reserved h console.bus
  · exact h

theorem step_reserved (h : console.cpu.registers.Reserved) : console.step.2.cpu.registers.Reserved := by
  unfold step
  split
  · exact h
  · exact Processor.step_reserved (takeIrq_reserved h) console.takeIrq.2.bus

/-- **Only registers put in place by hand can lack the reserved bit.** -/
theorem respond_reserved (h : console.cpu.registers.Reserved) {action : HostAction π}
    (ha : action.isAssignment = false) : (console.respond action).2.cpu.registers.Reserved := by
  cases action with
  | step => exact step_reserved h
  | run budget =>
    exact runFrom_keeps (P := fun console => console.cpu.registers.Reserved) (fun _ h => step_reserved h) budget _ 0 h
  | nmi => exact Processor.nmi_reserved h console.bus
  | reset => exact Processor.reset_reserved console.cpu console.bus.reset
  | hblank | press | attachVideo | pause | setBreakpoints | setWatchpoints | read | write | writePattern => exact h
  | load s =>
    simp only [respond]
    split
    · next hl => exact load_reserved hl
    · exact h
  | assign => cases ha

namespace Reachable

/-- **Every reachable console has genuine devices.** -/
theorem genuine {allowed : HostAction π → Prop} (h : Reachable allowed source console) :
    console.bus.Genuine source := by
  induction h with
  | new video debug => exact ⟨Channels.Genuine.initial, .none⟩
  | @insert _ console source mirroring cartridge _ hc ih =>
    have hinserted : (console.bus.insert cartridge).Genuine (some source) :=
      ⟨ih.channels, .some (Cartridge.ofImages_fits hc)⟩
    exact (ConsoleBus.genuine_keeps _).reset console.cpu hinserted.reset
  | act _ _ ih => exact respond_genuine ih _

/-- **A console whose registers were never put in place by hand has the reserved bit.** -/
theorem reserved (h : Reachable (fun action => action.isAssignment = false) source console) :
    console.cpu.registers.Reserved := by
  induction h with
  | new video debug => exact rfl
  | @insert _ console _ _ cartridge _ _ _ =>
    exact Processor.reset_reserved console.cpu (console.bus.insert cartridge).reset
  | act _ ha ih => exact respond_reserved ih ha

end Reachable
end Console
end NesConsole
