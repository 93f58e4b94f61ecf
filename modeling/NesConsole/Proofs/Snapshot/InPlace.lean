import NesConsole.Proofs.Snapshot.Accepted
/-!
# Loading in place

`Console.load` builds a new console.  A console that is overwritten part by part could be left half-changed: the sound
unit, the processor, work RAM and the cartridge take their parts one after the other, each of them can refuse, and what
was written before a refusal stays written.  `Console.overwrite` is that procedure: first the checks, then the parts.
`Console.overwrite_load` says that the checks are enough: it ends as `Console.load` does, and a refusal changes nothing.
-/
namespace NesConsole

/-- Work on a state that may be refused on the way.  A refusal keeps the changes made before it. -/
abbrev InPlace (σ ε α : Type) := ExceptT ε (StateM σ) α

namespace InPlace

variable {σ τ ε ε' α γ : Type}

def on (work : InPlace σ ε α) (s : σ) : Except ε α × σ := work.run.run s

def test (f : σ → Except ε Unit) : InPlace σ ε Unit := fun s => (f s, s)

/-- An operation that tests everything before its first change. -/
def tested (load : σ → Except ε σ) : InPlace σ ε Unit := fun s =>
  match load s with
  | .ok s' => (.ok (), s')
  | .error e => (.error e, s)

def part (get : σ → τ) (put : σ → τ → σ) (work : InPlace τ ε α) : InPlace σ ε α := fun s =>
  let (outcome, t) := work.on (get s)
  (outcome, put s t)

def mapError (f : ε → ε') (work : InPlace σ ε α) : InPlace σ ε' α := fun s =>
  let (outcome, s) := work.on s
  (outcome.mapError f, s)

/-- **All or nothing**: the work either does all that a load does or refuses as the load does and changes nothing. -/
def AllOrNothing (work : InPlace σ ε Unit) (load : σ → Except ε σ) : Prop :=
  ∀ s, work.on s = (tested load).on s

@[simp] theorem on_throw (e : ε) (s : σ) : (throw e : InPlace σ ε α).on s = (.error e, s) := rfl

@[simp] theorem on_modify (f : σ → σ) (s : σ) : (modify f : InPlace σ ε Unit).on s = (.ok (), f s) := rfl

@[simp] theorem on_test (f : σ → Except ε Unit) (s : σ) : (test f).on s = (f s, s) := rfl

theorem on_bind (work : InPlace σ ε α) (next : α → InPlace σ ε γ) (s : σ) :
    (work >>= next).on s = match work.on s with
      | (.ok a, s') => (next a).on s'
      | (.error e, s') => (.error e, s') := by
  show (ExceptT.run (work >>= next)).run s = _
  rw [ExceptT.run_bind]
  show (match (work.on s).1 with | .ok a => (next a).run | .error e => pure (.error e)).run (work.on s).2 = _
  rcases work.on s with ⟨_ | _, _⟩ <;> rfl

theorem on_bind_ok {work : InPlace σ ε α} {next : α → InPlace σ ε γ} {s s' : σ} {a : α} (h : work.on s = (.ok a, s')) :
    (work >>= next).on s = (next a).on s' := by
  rw [on_bind, h]

theorem on_bind_error {work : InPlace σ ε α} {next : α → InPlace σ ε γ} {s s' : σ} {e : ε}
    (h : work.on s = (.error e, s')) : (work >>= next).on s = (.error e, s') := by
  rw [on_bind, h]

theorem on_tested_ok {load : σ → Except ε σ} {s s' : σ} (h : load s = .ok s') : (tested load).on s = (.ok (), s') := by
  show (tested load) s = _
  rw [tested, h]

theorem on_tested_error {load : σ → Except ε σ} {s : σ} {e : ε} (h : load s = .error e) :
    (tested load).on s = (.error e, s) := by
  show (tested load) s = _
  rw [tested, h]

theorem on_part {get : σ → τ} {put : σ → τ → σ} {work : InPlace τ ε α} {s : σ} {outcome : Except ε α} {t : τ}
    (h : work.on (get s) = (outcome, t)) : (part get put work).on s = (outcome, put s t) := by
  show (part get put work) s = _
  rw [part, h]

theorem on_mapError {f : ε → ε'} {work : InPlace σ ε α} {s s' : σ} {outcome : Except ε α}
    (h : work.on s = (outcome, s')) : (work.mapError f).on s = (outcome.mapError f, s') := by
  show (mapError f work) s = _
  rw [mapError, h]

end InPlace

/-! ## The sound unit -/

open InPlace

/-- The test of one saved channel: first its kind, then its counters. -/
def ChannelState.checkAs (channel : Nat) (kind : ChannelKind) (state : ChannelState) : Except Corruption Unit :=
  if state.kind = kind then state.check else .error (.channelKind channel state.kind kind)

def ChannelState.checkAll (channel : Nat) : List ChannelKind → List ChannelState → Except Corruption Unit
  | kind :: kinds, state :: states => do
    state.checkAs channel kind
    checkAll (channel + 1) kinds states
  | _, _ => .ok ()

namespace Channels

/-- Puts a channel in the place of the one with its number; a place only takes channels of its kind. -/
def put (c : Channels) (number : Nat) (channel : Channel) : Channels :=
  match number, channel with
  | 0, .pulse p => { c with pulse1 := p }
  | 1, .pulse p => { c with pulse2 := p }
  | 2, .triangle t => { c with triangle := t }
  | 3, .noise n => { c with noise := n }
  | 4, .dmc d => { c with dmc := d }
  | _, _ => c

/-- One channel takes its state over, whatever the counters. -/
def overwriteOne (number : Nat) (state : ChannelState) : InPlace Channels Corruption Unit :=
  tested fun c =>
    match c.get? number with
    | some channel => c.put number <$> channel.load state
    | none => .ok c

def overwrite (number : Nat) : List ChannelState → InPlace Channels Corruption Unit
  | [] => pure ()
  | state :: states => do
    overwriteOne number state
    overwrite (number + 1) states

end Channels

/-- The registers' size, the number of channels and every channel are tested; then the registers, both flags and the
channels are written. -/
def Apu.overwrite (state : ApuState) : InPlace Apu Corruption Unit :=
  if h : state.regs.size = 32 then
    if state.channels.length = 5 then do
      test fun _ => ChannelState.checkAll 0 ChannelKind.ofChannel.toList state.channels
      modify fun apu => { apu with registers := { bytes := ⟨state.regs, h⟩ } }
      modify fun apu => { apu with frameInterrupt := state.frameInterrupt }
      modify fun apu => { apu with dmcInterrupt := state.dmcInterrupt }
      part (·.channels) (fun apu channels => { apu with channels }) (Channels.overwrite 0 state.channels)
    else
      throw (.channelCount state.channels.length 5)
  else
    throw (.audioRegisters state.regs.size 32)

/-- The test of one channel is the first half of taking its state over. -/
theorem ChannelState.checkAs_pulse (channel : Nat) (state : ChannelState) :
    state.checkAs channel .pulse = discard (Channels.pulse? channel state) := by
  cases state with
  | pulse regs stopped length divider decay restarting counter =>
    simp only [checkAs, kind, if_true, Channels.pulse?]
    cases check (pulse regs stopped length divider decay restarting counter) <;> rfl
  | triangle | noise | dmc => rfl

theorem ChannelState.checkAs_triangle (channel : Nat) (state : ChannelState) :
    state.checkAs channel .triangle = discard (Channels.triangle? channel state) := by
  cases state <;> rfl

theorem ChannelState.checkAs_noise (channel : Nat) (state : ChannelState) :
    state.checkAs channel .noise = discard (Channels.noise? channel state) := by
  cases state <;> rfl

theorem ChannelState.checkAs_dmc (channel : Nat) (state : ChannelState) :
    state.checkAs channel .dmc = discard (Channels.dmc? channel state) := by
  cases state with
  | dmc regs stopped sampleLength dmaLength =>
    simp only [checkAs, kind, if_true, Channels.dmc?]
    cases check (dmc regs stopped sampleLength dmaLength) <;> rfl
  | pulse | triangle | noise => rfl

/-- The tests of five channels refuse exactly what `Channels.ofStates` refuses, for the same cause. -/
theorem ChannelState.checkAll_ofStates {states : List ChannelState} (h : states.length = 5) :
    checkAll 0 ChannelKind.ofChannel.toList states = discard (Channels.ofStates states) := by
  match states, h with
  | [s0, s1, s2, s3, s4], _ =>
    show (do s0.checkAs 0 .pulse; s1.checkAs 1 .pulse; s2.checkAs 2 .triangle; s3.checkAs 3 .noise; s4.checkAs 4 .dmc
             .ok ()) = _
    rw [checkAs_pulse, checkAs_pulse, checkAs_triangle, checkAs_noise, checkAs_dmc]
    simp only [Channels.ofStates]
    cases Channels.pulse? 0 s0 with
    | error => rfl
    | ok =>
      cases Channels.pulse? 1 s1 with
      | error => rfl
      | ok =>
        cases Channels.triangle? 2 s2 with
        | error => rfl
        | ok =>
          cases Channels.noise? 3 s3 with
          | error => rfl
          | ok => cases Channels.dmc? 4 s4 <;> rfl

theorem Channel.kind_ofState (state : ChannelState) : (Channel.ofState state).kind = state.kind := by
  cases state <;> rfl

namespace Channels

theorem overwriteOne_on {old : Channels} {number : Nat} {new : Channel} {state : ChannelState} (channel : Channel)
    (hget : old.get? number = some channel) (hnew : Channel.ofState state = new) (hkind : new.kind = channel.kind) :
    (overwriteOne number state).on old = (.ok (), old.put number new) := by
  refine on_tested_ok ?_
  have hload : channel.load state = .ok new := by
    unfold Channel.load
    rw [if_pos (by rw [← Channel.kind_ofState, hnew, hkind]), hnew]
  simp only [hget, hload]
  rfl

/-- **No channel refuses a state that was tested**, so that all five are written. -/
theorem overwrite_on {states : List ChannelState} {c : Channels} (h : ofStates states = .ok c) (old : Channels) :
    (overwrite 0 states).on old = (.ok (), c) := by
  obtain ⟨s0, s1, s2, s3, s4, rfl, h0, h1, h2, h3, h4⟩ := ofStates_ok h
  unfold overwrite
  rw [on_bind_ok (overwriteOne_on (.pulse old.pulse1) rfl (pulse?_ok h0).2.2 rfl)]
  unfold overwrite
  rw [on_bind_ok (overwriteOne_on (.pulse old.pulse2) rfl (pulse?_ok h1).2.2 rfl)]
  unfold overwrite
  rw [on_bind_ok (overwriteOne_on (.triangle old.triangle) rfl (triangle?_ok h2).2.2 rfl)]
  unfold overwrite
  rw [on_bind_ok (overwriteOne_on (.noise old.noise) rfl (noise?_ok h3).2.2 rfl)]
  unfold overwrite
  rw [on_bind_ok (overwriteOne_on (.dmc old.dmc) rfl (dmc?_ok h4).2.2 rfl)]
  rfl

end Channels

/-- **The sound unit takes a state over as a whole or not at all.** -/
theorem Apu.overwrite_load (state : ApuState) : AllOrNothing (Apu.overwrite state) (·.load state) := by
  intro apu
  unfold Apu.overwrite
  by_cases hs : state.regs.size = 32
  · rw [dif_pos hs]
    by_cases hl : state.channels.length = 5
    · rw [if_pos hl]
      have hcheck := ChannelState.checkAll_ofStates hl
      cases hc : Channels.ofStates state.channels with
      | error e =>
        have htest : (test fun _ => ChannelState.checkAll 0 ChannelKind.ofChannel.toList state.channels).on apu =
            (.error e, apu) := by rw [on_test, hcheck, hc]; rfl
        have hload : apu.load state = .error e := by simp only [Apu.load, dif_pos hs, hc]; rfl
        rw [on_bind_error htest, on_tested_error hload]
      | ok c =>
        have htest : (test fun _ => ChannelState.checkAll 0 ChannelKind.ofChannel.toList state.channels).on apu =
            (.ok (), apu) := by rw [on_test, hcheck, hc]; rfl
        have hload : apu.load state = .ok { apu with
            registers := { bytes := ⟨state.regs, hs⟩ }, channels := c, frameInterrupt := state.frameInterrupt
            dmcInterrupt := state.dmcInterrupt } := by simp only [Apu.load, dif_pos hs, hc]; rfl
        rw [on_bind_ok htest, on_bind_ok (on_modify _ _), on_bind_ok (on_modify _ _), on_bind_ok (on_modify _ _),
          on_part (Channels.overwrite_on hc _), on_tested_ok hload]
    · rw [if_neg hl, on_throw]
      have hc : Channels.ofStates state.channels = .error (.channelCount state.channels.length 5) := by
        unfold Channels.ofStates
        split
        · next he => rw [he] at hl; exact absurd rfl hl
        · rfl
      have hload : apu.load state = .error (.channelCount state.channels.length 5) := by
        simp only [Apu.load, dif_pos hs, hc]; rfl
      rw [on_tested_error hload]
  · have hload : apu.load state = .error (.audioRegisters state.regs.size 32) := by simp only [Apu.load, dif_neg hs]
    rw [dif_neg hs, on_throw, on_tested_error hload]

/-! ## The cartridge -/

namespace Cartridge

/-- Whether a saved pattern RAM, or its absence, fits the cartridge. -/
def takesChrRam (c : Cartridge) : Option (Array UInt8) → Bool
  | some ram => c.chrIsRam && ram.size == c.chr.size
  | none => !c.chrIsRam

/-- The tests of a saved cartridge.  The bank table and the board's registers are tried out on copies. -/
def check (c : Cartridge) (state : CartridgeState) : Except Corruption Unit :=
  if state.boardNumber ≠ c.number then
    .error (.boardNumber state.boardNumber c.number)
  else if state.prgRam.size ≠ prgRamSize then
    .error (.prgRamSize state.prgRam.size)
  else if !c.takesChrRam state.chrRam then
    .error .chrRamMismatch
  else do
    let _ ← c.banks.load state.banks
    match Board.ofNumber? state.boardNumber with
    | some scratch => discard (scratch.load state.boardRegisters)
    | none => .error (.boardNumber state.boardNumber c.number)

/-- Images are copied over images of the same size only. -/
def copyPrgRam (image : Array UInt8) : InPlace Cartridge Corruption Unit :=
  tested fun c =>
    if h : image.size = prgRamSize then .ok { c with prgRam := ⟨image, h⟩ } else .error (.prgRamSize image.size)

def copyChrRam : Option (Array UInt8) → InPlace Cartridge Corruption Unit
  | some image => tested fun c =>
    if h : image.size = c.chr.size then .ok { c with chr := image, chr_pos := h ▸ c.chr_pos }
    else .error .chrRamMismatch
  | none => pure ()

/-- After the tests the bank table, the board's registers, program RAM and pattern RAM are written. -/
def overwrite (state : CartridgeState) : InPlace Cartridge Corruption Unit := do
  test (·.check state)
  part (·.banks) (fun c banks => { c with banks }) (tested (·.load state.banks))
  part (·.board) (fun c board => { c with board }) (tested (·.load state.boardRegisters))
  copyPrgRam state.prgRam
  copyChrRam state.chrRam

theorem takesChrRam_loadChrRam (c : Cartridge) (saved : Option (Array UInt8)) :
    (c.takesChrRam saved = true ∧ ∃ c', c.loadChrRam saved = .ok c') ∨
      (c.takesChrRam saved = false ∧ c.loadChrRam saved = .error .chrRamMismatch) := by
  unfold loadChrRam takesChrRam
  cases saved with
  | none => cases hr : c.chrIsRam <;> simp
  | some ram =>
    cases hr : c.chrIsRam with
    | false => simp
    | true => by_cases hs : ram.size = c.chr.size <;> simp [hs]

/-- A fresh board of the same number accepts the same registers. -/
theorem scratch_load (board : Board) :
    ∃ scratch, Board.ofNumber? board.number = some scratch ∧
      ∀ regs, discard (scratch.load regs) = discard (board.load regs) := by
  cases board <;> exact ⟨_, rfl, fun _ => rfl⟩

/-- **The tests of a cartridge refuse exactly what its load refuses**, for the same cause. -/
theorem check_load (c : Cartridge) (state : CartridgeState) : c.check state = discard (c.load state) := by
  unfold check load
  by_cases hn : state.boardNumber = c.number
  · rw [if_neg (not_not_intro hn), if_neg (not_not_intro hn)]
    by_cases hs : state.prgRam.size = prgRamSize
    · rw [if_neg (not_not_intro hs), dif_pos hs]
      rcases takesChrRam_loadChrRam { c with prgRam := ⟨state.prgRam, hs⟩ } state.chrRam with ⟨ht, ram, hr⟩ | ⟨ht, hr⟩
      · replace ht : c.takesChrRam state.chrRam = true := ht
        obtain ⟨scratch, hscratch, hregs⟩ := scratch_load c.board
        rw [ht, hr, hn, show c.number = c.board.number from rfl, hscratch]
        obtain ⟨chr, chr_pos, -, -, -, rfl⟩ := loadChrRam_ok hr
        show (c.banks.load state.banks >>= fun _ => discard (scratch.load state.boardRegisters)) =
          discard (c.banks.load state.banks >>= fun banks => c.board.load state.boardRegisters >>= fun board => pure _)
        rw [hregs]
        cases c.banks.load state.banks with
        | error => rfl
        | ok banks => cases c.board.load state.boardRegisters <;> rfl
      · replace ht : c.takesChrRam state.chrRam = false := ht
        rw [ht, hr]
        rfl
    · rw [if_pos hs, dif_neg hs]; rfl
  · rw [if_pos hn, if_pos hn]; rfl

/-- **The cartridge takes a state over as a whole or not at all.** -/
theorem overwrite_load (state : CartridgeState) : AllOrNothing (overwrite state) (·.load state) := by
  intro c
  have hcheck := check_load c state
  unfold overwrite
  cases hl : c.load state with
  | error e =>
    have htest : (test (·.check state)).on c = (.error e, c) := by rw [on_test, hcheck, hl]; rfl
    rw [on_bind_error htest, on_tested_error hl]
  | ok c' =>
    have htest : (test (·.check state)).on c = (.ok (), c) := by rw [on_test, hcheck, hl]; rfl
    obtain ⟨-, hs, chr, chr_pos, banks, board, hsaved, hsize, hrom, hb, hd, rfl⟩ := load_ok hl
    have hprg (k : Cartridge) : (copyPrgRam state.prgRam).on k = (.ok (), { k with prgRam := ⟨state.prgRam, hs⟩ }) :=
      on_tested_ok (dif_pos hs)
    have hchr (k : Cartridge) (hk : k.chr = c.chr) :
        (copyChrRam state.chrRam).on k = (.ok (), { k with chr, chr_pos }) := by
      rw [← hsaved]
      cases hr : c.chrIsRam with
      | true => exact on_tested_ok (dif_pos (by rw [hsize, hk]))
      | false => cases hrom hr; cases k; cases hk; rfl
    rw [on_bind_ok htest, on_bind_ok (on_part (on_tested_ok hb)), on_bind_ok (on_part (on_tested_ok hd)),
      on_bind_ok (hprg _), on_tested_ok hl]
    exact hchr _ (by rfl)

end Cartridge

/-! ## The console -/

namespace Console

variable {π : Type}

def checkContents (console : Console π) (s : Snapshot) : Except Corruption Unit := do
  s.cpu.check
  if s.ram.size = workRamSize then
    match console.bus.cartridge, s.cartridge with
    | some cartridge, some state => cartridge.check state
    | none, none => .ok ()
    | _, _ => .error .cartridgePresence
  else
    .error (.workRamSize s.ram.size)

def overwriteCartridge (saved : Option CartridgeState) : InPlace (Option Cartridge) Corruption Unit := fun inserted =>
  match inserted, saved with
  | some cartridge, some state =>
    let (outcome, cartridge) := (Cartridge.overwrite state).on cartridge
    (outcome, some cartridge)
  | inserted, _ => (.ok (), inserted)

/-- The sound unit, the processor, work RAM, the cartridge and the interrupt line are written in this order. -/
def overwriteContents (s : Snapshot) : InPlace (Console π) Corruption Unit := do
  test (·.checkContents s)
  part (·.bus.apu) (fun c apu => { c with bus := { c.bus with apu } }) (Apu.overwrite s.apu)
  part (·.cpu) (fun c cpu => { c with cpu }) (tested (·.load s.cpu))
  part (·.bus) (fun c bus => { c with bus }) (tested (·.loadRam s.ram))
  part (·.bus.cartridge) (fun c cartridge => { c with bus := { c.bus with cartridge } })
    (overwriteCartridge s.cartridge)
  modify fun c => { c with irq := s.irqPending }

def overwrite (s : Snapshot) : InPlace (Console π) SnapshotError Unit :=
  if s.version = snapshotVersion then
    (overwriteContents s).mapError .corrupt
  else
    throw (.unsupportedVersion s.version)

theorem checkContents_ok {console : Console π} {s : Snapshot} (hcpu : s.cpu.check = .ok ())
    (hs : s.ram.size = workRamSize) :
    console.checkContents s = discard (loadCartridge console.bus.cartridge s.cartridge) := by
  unfold checkContents loadCartridge
  rw [hcpu]
  show (if s.ram.size = workRamSize then _ else _) = _
  rw [if_pos hs]
  cases console.bus.cartridge with
  | none => cases s.cartridge <;> rfl
  | some c =>
    cases s.cartridge with
    | none => rfl
    | some state =>
      show c.check state = discard (some <$> c.load state)
      rw [Cartridge.check_load]
      cases c.load state <;> rfl

theorem overwriteCartridge_on {inserted inserted' : Option Cartridge} {saved : Option CartridgeState}
    (h : loadCartridge inserted saved = .ok inserted') :
    (overwriteCartridge saved).on inserted = (.ok (), inserted') := by
  rcases loadCartridge_ok h with ⟨rfl, rfl, rfl⟩ | ⟨c, state, c', rfl, rfl, rfl, hload⟩
  · rfl
  · have hc : (Cartridge.overwrite state).on c = (.ok (), c') := by
      rw [Cartridge.overwrite_load state c, on_tested_ok hload]
    show ((Cartridge.overwrite state).on c |>.1, some ((Cartridge.overwrite state).on c).2) = _
    rw [hc]

/-- **What refuses contents** is either a test made before the first change or the sound unit's own test. -/
theorem loadContents_error {console : Console π} {s : Snapshot} {e : Corruption}
    (h : console.loadContents s = .error e) :
    console.checkContents s = .error e ∨
      console.checkContents s = .ok () ∧ console.bus.apu.load s.apu = .error e := by
  unfold loadContents Processor.load at h
  cases hcpu : s.cpu.check with
  | error => rw [hcpu] at h; cases h; exact .inl (by rw [checkContents, hcpu]; rfl)
  | ok =>
    rw [hcpu] at h
    by_cases hs : s.ram.size = workRamSize
    · have hcheck : console.checkContents s = discard (loadCartridge console.bus.cartridge s.cartridge) :=
        checkContents_ok hcpu hs
      simp only [dif_pos hs] at h
      cases hc : loadCartridge console.bus.cartridge s.cartridge with
      | error => rw [hc] at h; cases h; exact .inl (by rw [hcheck, hc]; rfl)
      | ok =>
        rw [hc] at h
        refine .inr ⟨by rw [hcheck, hc]; rfl, ?_⟩
        cases ha : console.bus.apu.load s.apu with
        | error => rw [ha] at h; cases h; rfl
        | ok => rw [ha] at h; cases h
    · simp only [dif_neg hs] at h
      cases h
      exact .inl (by simp only [checkContents, hcpu, if_neg hs]; rfl)

/-- **The console takes a snapshot's contents over as a whole or not at all.** -/
theorem overwriteContents_load (s : Snapshot) :
    AllOrNothing (overwriteContents s) fun console : Console π => console.loadContents s := by
  intro console
  unfold overwriteContents
  cases hl : console.loadContents s with
  | error e =>
    rw [on_tested_error hl]
    rcases loadContents_error hl with hcheck | ⟨hcheck, ha⟩
    · exact on_bind_error (by rw [on_test, hcheck])
    · have hpassed : (test (·.checkContents s)).on console = (.ok (), console) := by rw [on_test, hcheck]
      have hapu : (Apu.overwrite s.apu).on console.bus.apu = (.error e, console.bus.apu) := by
        rw [Apu.overwrite_load s.apu, on_tested_error ha]
      rw [on_bind_ok hpassed]
      exact on_bind_error (on_part (s := console) hapu)
  | ok console' =>
    rw [on_tested_ok hl]
    obtain ⟨hcpu, hs, cartridge, apu, hc, ha, rfl⟩ := loadContents_ok hl
    have hpassed : (test (·.checkContents s)).on console = (.ok (), console) := by
      rw [on_test, checkContents_ok hcpu hs, hc]; rfl
    have hload (cpu : Processor) : cpu.load s.cpu = .ok { cpu with registers := s.cpu, operation := none } := by
      rw [Processor.load, hcpu]; rfl
    have hapu : (Apu.overwrite s.apu).on console.bus.apu = (.ok (), apu) := by
      rw [Apu.overwrite_load s.apu, on_tested_ok ha]
    rw [on_bind_ok hpassed, on_bind_ok (on_part (s := console) hapu), on_bind_ok (on_part (on_tested_ok (hload _))),
      on_bind_ok (on_part (on_tested_ok (dif_pos hs)))]
    refine on_bind_ok (a := ()) (on_part (t := cartridge) ?_)
    exact overwriteCartridge_on hc

/-- **Overwriting ends as loading does**: with the loaded console, or with the same refusal and the console as it
was. -/
theorem overwrite_load (s : Snapshot) : AllOrNothing (overwrite s) fun console : Console π => console.load s := by
  intro console
  unfold overwrite
  by_cases hv : s.version = snapshotVersion
  · have hload : console.load s = (console.loadContents s).mapError .corrupt := if_pos hv
    rw [if_pos hv]
    cases hc : console.loadContents s with
    | error e =>
      rw [hc] at hload
      rw [on_tested_error hload, on_mapError ((overwriteContents_load s console).trans (on_tested_error hc))]
      rfl
    | ok console' =>
      rw [hc] at hload
      rw [on_tested_ok hload, on_mapError ((overwriteContents_load s console).trans (on_tested_ok hc))]
      rfl
  · have hload : console.load s = .error (.unsupportedVersion s.version) := if_neg hv
    rw [if_neg hv, on_throw, on_tested_error hload]

/-- **A snapshot is taken over as a whole or not at all**: either the console stays as it was, or it saves that very
snapshot again, flag bytes aside. -/
theorem overwrite_all_or_nothing (console : Console π) (s : Snapshot) :
    (∃ e, console.load s = .error e ∧ (overwrite s).on console = (.error e, console)) ∨
      ∃ console', console.load s = .ok console' ∧ (overwrite s).on console = (.ok (), console') ∧
        console'.save = s.plain := by
  cases hl : console.load s with
  | error e => exact .inl ⟨e, rfl, (overwrite_load s console).trans (on_tested_error hl)⟩
  | ok console' => exact .inr ⟨console', rfl, (overwrite_load s console).trans (on_tested_ok hl), save_load hl⟩

end Console
end NesConsole
