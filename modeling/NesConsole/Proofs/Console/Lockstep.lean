import NesConsole.Proofs.Cartridge.Nrom
import NesConsole.Proofs.Console.InterruptLine
import NesConsole.Proofs.FlatMemory
import NesConsole.Proofs.Processor.Stages
import NesConsole.Proofs.Snapshot.Loadable
/-!
# Consoles and flat memory in lockstep

What is known of a processor on flat memory holds of a console, as far as its accesses are plain: to work RAM, program RAM
and program space, where a bus with an NROM cartridge is nothing but memory.  An exchange with plain accesses ends alike on
both and keeps the memory showing what the bus does (`FlatMemory.Shows.perform`, by induction on the exchange), so a step
does, and so any number of steps (`Console.lockstep`).  A console that is paused or takes an interrupt does what no
processor by itself does, and there the two part.
-/
namespace NesConsole

/-- Whether the access is to work RAM, to program RAM or, if it is a read, to program space. -/
def Access.isPlain : Access → Bool
  | .read address _ => address < 0x0800 || 0x6000 ≤ address
  | .write address _ => address < 0x0800 || (0x6000 ≤ address && address < 0x8000)

namespace FlatMemory

variable {π : Type}

/-- The memory shows on plain addresses what a bus with an NROM cartridge does. -/
structure Shows (prg : Array UInt8) (memory : FlatMemory) (bus : ConsoleBus π) (c : Cartridge) : Prop where
  inserted : bus.cartridge = some c
  nrom : c.IsNrom prg
  ram : ∀ address : UInt16, address < 0x0800 → bus.ram[address.toNat]? = some (memory.get address)
  prgRam : ∀ address : UInt16, 0x6000 ≤ address → address < 0x8000 →
    c.prgRam[address.toNat - 0x6000]? = some (memory.get address)
  prg : ∀ address : UInt16, 0x8000 ≤ address →
    prg[(address &&& 0x7FFF).toNat % prg.size]? = some (memory.get address)

end FlatMemory

theorem prgRam_index {address : UInt16} (h : 0x6000 ≤ address) (h' : address < 0x8000) :
    0x6000 ≤ address.toNat ∧ address.toNat % prgRamSize = address.toNat - 0x6000 := by
  have hleast : 0x6000 ≤ address.toNat := UInt16.le_iff_toNat_le.1 h
  have hmost : address.toNat < 0x8000 := UInt16.lt_iff_toNat_lt.1 h'
  unfold prgRamSize
  omega

namespace FlatMemory.Shows

variable {π : Type} [VideoUnit π] {prg : Array UInt8} {memory : FlatMemory} {bus : ConsoleBus π} {c : Cartridge}

/-- **A plain read finds what the memory holds.** -/
theorem read (h : Shows prg memory bus c) {address : UInt16} (ha : address < 0x0800 ∨ 0x6000 ≤ address) :
    (Bus.read bus address).1 = memory.get address := by
  change (bus.fetch address).1 = memory.get address
  apply Option.some.inj
  unfold ConsoleBus.fetch
  obtain hlow | hhigh := ha
  · have hbound : address.toNat < workRamSize := UInt16.lt_iff_toNat_lt.1 hlow
    have hindex : address.toNat % workRamSize = address.toNat := Nat.mod_eq_of_lt hbound
    rw [if_pos (by grind), ← h.ram address hlow]
    simp [ConsoleBus.ramIndex, hindex, hbound]
  · rw [if_neg (by grind), if_neg (by grind), if_neg (by grind), if_neg (by grind), h.inserted]
    change some (c.read address) = _
    by_cases hrom : 0x8000 ≤ address
    · rw [← h.nrom.read hrom, h.prg address hrom]
    · have hram : address < 0x8000 := by grind
      rw [← h.prgRam address hhigh hram]
      unfold Cartridge.read
      obtain ⟨-, hindex⟩ := prgRam_index hhigh hram
      rw [if_neg (by grind), if_pos hram]
      simp [Cartridge.prgRamIndex, hindex]

omit [VideoUnit π] in
/-- Only what the memory holds counts. -/
theorem congr (h : Shows prg memory bus c) {memory' : FlatMemory}
    (hget : ∀ address, memory.get address = memory'.get address) : Shows prg memory' bus c where
  inserted := h.inserted
  nrom := h.nrom
  ram address ha := (h.ram address ha).trans (congrArg some (hget address))
  prgRam address ha ha' := (h.prgRam address ha ha').trans (congrArg some (hget address))
  prg address ha := (h.prg address ha).trans (congrArg some (hget address))

theorem readBus (h : Shows prg memory bus c) {address : UInt16} (ha : address < 0x2000 ∨ 0x4020 ≤ address) :
    Shows prg memory (Bus.read bus address).2 c := by
  rw [bus.read_quiet ha]
  exact { h with }

omit [VideoUnit π] in
theorem readMemory (h : Shows prg memory bus c) (address : UInt16) :
    Shows prg (Bus.read memory address).2 bus c :=
  { h with }

/-- **A plain write reaches both**, and leaves the cartridge's images and banks alone. -/
theorem write (h : Shows prg memory bus c) {address : UInt16}
    (ha : address < 0x0800 ∨ (0x6000 ≤ address ∧ address < 0x8000)) (value : UInt8) :
    ∃ c', Shows prg (Bus.write memory address value) (Bus.write bus address value) c' := by
  have hstored : Bus.write bus address value = bus.store address value := by
    change bus.write address value = _
    unfold ConsoleBus.write ConsoleBus.claims
    rw [h.inserted]
    exact if_neg (by simp [h.nrom.claims address])
  rw [hstored]
  unfold ConsoleBus.store
  obtain hlow | ⟨hhigh, hram⟩ := ha
  · rw [if_pos (by grind)]
    refine ⟨c, { h with ram := fun other hother => ?_, prgRam := fun other hlow' hhigh' => ?_, prg := ?_ }⟩
    · have hindex : address.toNat % workRamSize = address.toNat := Nat.mod_eq_of_lt (UInt16.lt_iff_toNat_lt.1 hlow)
      simp only [get_write, ConsoleBus.ramIndex, Vector.getElem?_set, hindex]
      by_cases heq : other = address
      · rw [if_pos heq, if_pos (congrArg UInt16.toNat heq.symm)]
      · rw [if_neg heq, if_neg fun hsame => heq (UInt16.toNat_inj.1 hsame.symm)]
        exact h.ram other hother
    · rw [get_write, if_neg (by grind)]
      exact h.prgRam other hlow' hhigh'
    · intro other hother
      rw [get_write, if_neg (by grind)]
      exact h.prg other hother
  · rw [if_neg (by grind), if_neg (by grind), if_neg (by grind), if_neg (by grind), h.inserted, Option.map_some]
    have hwrite : c.write address value = { c with prgRam := c.prgRam.set (Cartridge.prgRamIndex address) value } := by
      unfold Cartridge.write
      rw [h.nrom.claims, if_neg Bool.false_ne_true, if_pos ⟨hhigh, hram⟩]
    rw [hwrite]
    refine ⟨_, { h with inserted := rfl, ram := fun other hother => ?_, prgRam := fun other hlow' hhigh' => ?_, prg := ?_ }⟩
    · rw [get_write, if_neg (by grind)]
      exact h.ram other hother
    · obtain ⟨hleast, hindex⟩ := prgRam_index hhigh hram
      obtain ⟨hleast', -⟩ := prgRam_index hlow' hhigh'
      simp only [get_write, Cartridge.prgRamIndex, Vector.getElem?_set, hindex]
      by_cases heq : other = address
      · rw [if_pos heq, if_pos (by rw [heq])]
      · rw [if_neg heq, if_neg fun hsame => heq (UInt16.toNat_inj.1 (by omega))]
        exact h.prgRam other hlow' hhigh'
    · intro other hother
      rw [get_write, if_neg (by grind)]
      exact h.prg other hother

/-- **An exchange with plain accesses ends alike on both**, by the same accesses. -/
theorem perform {α : Type} (h : Shows prg memory bus c) (e : Exchange α)
    (hplain : ∀ access ∈ e.accesses bus, access.isPlain = true) :
    e.accesses memory = e.accesses bus ∧ (e.perform memory).1 = (e.perform bus).1 ∧
      ∃ c', Shows prg (e.perform memory).2 (e.perform bus).2 c' := by
  induction e generalizing memory bus c with
  | done result => exact ⟨rfl, rfl, c, h⟩
  | read address next ih =>
    have hread := hplain _ List.mem_cons_self
    simp only [Access.isPlain, Bool.or_eq_true, decide_eq_true_eq] at hread
    have hvalue : (Bus.read bus address).1 = (Bus.read memory address).1 := h.read hread
    have hquiet : address < 0x2000 ∨ 0x4020 ≤ address := by grind
    have hshows := (h.readBus hquiet).readMemory address
    rw [Exchange.accesses] at hplain
    rw [Exchange.accesses, Exchange.accesses, Exchange.perform, Exchange.perform]
    dsimp only at hplain ⊢
    rw [hvalue] at hplain ⊢
    obtain ⟨haccesses, hresult, hleft⟩ := ih _ hshows fun access hmem => hplain access (List.mem_cons_of_mem _ hmem)
    exact ⟨congrArg _ haccesses, hresult, hleft⟩
  | write address value next ih =>
    have hwrite := hplain _ List.mem_cons_self
    simp only [Access.isPlain, Bool.or_eq_true, Bool.and_eq_true, decide_eq_true_eq] at hwrite
    obtain ⟨c', hshows⟩ := h.write hwrite value
    obtain ⟨haccesses, hresult, hleft⟩ := ih hshows fun access hmem => hplain access (List.mem_cons_of_mem _ hmem)
    exact ⟨congrArg _ haccesses, hresult, hleft⟩

/-- That accesses are plain can be seen on the memory: the bus is then asked for the same. -/
theorem accesses_eq {α : Type} (h : Shows prg memory bus c) (e : Exchange α)
    (hplain : ∀ access ∈ e.accesses memory, access.isPlain = true) : e.accesses bus = e.accesses memory := by
  induction e generalizing memory bus c with
  | done result => rfl
  | read address next ih =>
    have hread := hplain _ List.mem_cons_self
    simp only [Access.isPlain, Bool.or_eq_true, decide_eq_true_eq] at hread
    have hvalue : (Bus.read bus address).1 = (Bus.read memory address).1 := h.read hread
    have hquiet : address < 0x2000 ∨ 0x4020 ≤ address := by grind
    have hshows := (h.readBus hquiet).readMemory address
    rw [Exchange.accesses] at hplain
    rw [Exchange.accesses, Exchange.accesses]
    dsimp only at hplain ⊢
    rw [hvalue]
    exact congrArg _ (ih _ hshows fun access hmem => hplain access (List.mem_cons_of_mem _ hmem))
  | write address value next ih =>
    have hwrite := hplain _ List.mem_cons_self
    simp only [Access.isPlain, Bool.or_eq_true, Bool.and_eq_true, decide_eq_true_eq] at hwrite
    obtain ⟨c', hshows⟩ := h.write hwrite value
    exact congrArg _ (ih hshows fun access hmem => hplain access (List.mem_cons_of_mem _ hmem))

/-- Bytes placed in work RAM. -/
theorem writes (h : Shows prg memory bus c) (bytes : List (UInt16 × UInt8)) (hram : ∀ byte ∈ bytes, byte.1 < 0x0800) :
    ∃ c', Shows prg (bytes.foldl (fun memory byte => Bus.write memory byte.1 byte.2) memory)
      (bytes.foldl (fun bus byte => Bus.write bus byte.1 byte.2) bus) c' := by
  induction bytes generalizing memory bus c with
  | nil => exact ⟨c, h⟩
  | cons byte bytes ih =>
    obtain ⟨hfirst, hrest⟩ := List.forall_mem_cons.1 hram
    obtain ⟨c', hshows⟩ := h.write (.inl hfirst) byte.2
    exact ih hshows hrest

end FlatMemory.Shows

/-! ## Processors -/

/-- The processors differ at most in what listings are kept for. -/
structure Processor.Matches (a b : Processor) : Prop where
  registers : a.registers = b.registers
  paused : a.paused = b.paused
  fault : a.fault = b.fault
  breakpoints : a.breakpoints = b.breakpoints
  watchpoints : a.watchpoints = b.watchpoints

namespace FlatMemory.Shows

variable {π : Type} [VideoUnit π] {prg : Array UInt8} {memory : FlatMemory} {bus : ConsoleBus π} {c : Cartridge}

theorem listedBus (h : Shows prg memory bus c) {cpu : Processor}
    (hpc : cpu.registers.pc < 0x0800 ∨ 0x6000 ≤ cpu.registers.pc) : Shows prg memory (cpu.listed bus) c := by
  apply cpu.listed_keeps (P := fun bus => Shows prg memory bus c) h
  intro listed i hi hlisted
  apply hlisted.readBus
  have hcases : i = 0 ∨ i = 1 ∨ i = 2 := by omega
  rcases hcases with rfl | rfl | rfl <;> grind

omit [VideoUnit π] in
theorem listedMemory (h : Shows prg memory bus c) (cpu : Processor) : Shows prg (cpu.listed memory) bus c := by
  apply cpu.listed_keeps (P := fun memory => Shows prg memory bus c) h
  intro listed i hi hlisted
  exact hlisted.readMemory _

end FlatMemory.Shows

theorem Processor.Matches.conclude {a b : Processor} (h : a.Matches b) (start : UInt16) {code : UInt8}
    {fetched : Fetched} (hf : fetched.Regular code) :
    (a.conclude start fetched).1 = (b.conclude start fetched).1 ∧
      (a.conclude start fetched).2.Matches (b.conclude start fetched).2 := by
  cases fetched with
  | unmapped code' =>
    refine ⟨rfl, { h with registers := ?_, paused := rfl, fault := rfl }⟩
    simp only [Processor.conclude, stop, h.registers]
  | executed i behind effect pageCrossed =>
    obtain ⟨-, heffect, -⟩ := hf
    obtain ⟨effect, rfl⟩ := Option.isSome_iff_exists.1 heffect
    refine ⟨rfl, { h with registers := rfl, paused := ?_ }⟩
    simp only [Processor.conclude, settle, h.paused, h.breakpoints]

/-- **A step with plain accesses is the same on flat memory**, and keeps what the memory shows. -/
theorem FlatMemory.Shows.step {π : Type} [VideoUnit π] {prg : Array UInt8} {memory : FlatMemory} {bus : ConsoleBus π}
    {c : Cartridge} (h : Shows prg memory bus c) {cpu cpu' : Processor} (hcpu : cpu.Matches cpu')
    (hplain : ∀ access ∈ cpu.accesses bus, access.isPlain = true) :
    (cpu.step bus).1 = (cpu'.step memory).1 ∧ (cpu.step bus).2.1.Matches (cpu'.step memory).2.1 ∧
      ∃ c', Shows prg (cpu'.step memory).2.2 (cpu.step bus).2.2 c' := by
  have hfetch : Access.read cpu.registers.pc (cpu.opcode bus) ∈ cpu.accesses bus := List.mem_cons_self
  have hpc : cpu.registers.pc < 0x0800 ∨ 0x6000 ≤ cpu.registers.pc := by simpa [Access.isPlain] using hplain _ hfetch
  have hlisted := (h.listedBus hpc).listedMemory cpu'
  obtain ⟨haccesses, hresult, hleft⟩ := hlisted.perform cpu.registers.instruction hplain
  have hfetched : cpu'.fetched memory = cpu.registers.instruction.perform (cpu'.listed memory) := by
    unfold Processor.fetched
    rw [hcpu.registers]
  have hsame : cpu'.accesses memory = cpu.accesses bus := by
    unfold Processor.accesses
    rw [← hcpu.registers, haccesses]
  have hwatched : (cpu.watched bus).Matches (cpu'.watched memory) := by
    obtain ⟨history, hnoted⟩ := cpu.noteStep_eq bus
    obtain ⟨history', hnoted'⟩ := cpu'.noteStep_eq memory
    unfold Processor.watched
    rw [hnoted, hnoted', hsame, hcpu.paused, hcpu.watchpoints]
    exact { hcpu with paused := rfl, watchpoints := rfl }
  obtain ⟨hcycles, hconcluded⟩ := hwatched.conclude cpu.registers.pc (cpu.fetched_regular bus)
  rw [Processor.step_performed, Processor.step_performed, hfetched, hresult, ← hcpu.registers]
  exact ⟨hcycles, hconcluded, hleft⟩

theorem Processor.startsTransfer_plain {β : Type} [Bus β] {cpu : Processor} {bus : β}
    (h : ∀ access ∈ cpu.accesses bus, access.isPlain = true) : cpu.startsTransfer bus = false := by
  unfold startsTransfer
  rw [List.any_eq_false]
  intro access hmem hstarts
  have hplain := h access hmem
  cases access with
  | read => cases hstarts
  | write address value =>
    obtain rfl : address = 0x4014 := by simpa [Access.startsTransfer] using hstarts
    cases hplain

/-! ## Runs of steps -/

namespace Console

variable {π : Type} [VideoUnit π]

/-- The step to come is one that a processor by itself could take on plain memory. -/
structure StepsPlainly (console : Console π) : Prop where
  running : console.cpu.paused = false
  uninterrupted : console.takesIrq = false
  plain : ∀ access ∈ console.cpu.accesses console.bus, access.isPlain = true

theorem StepsPlainly.step {console : Console π} (hp : console.StepsPlainly) {prg : Array UInt8} {memory : FlatMemory}
    {c : Cartridge} (h : memory.Shows prg console.bus c) {cpu : Processor} (hcpu : console.cpu.Matches cpu) :
    console.step.1 = UInt32.ofNat (cpu.step memory).1 + console.bus.stall ∧
      console.step.2.cpu.Matches (cpu.step memory).2.1 ∧
      ∃ c', (cpu.step memory).2.2.Shows prg console.step.2.bus c' := by
  obtain ⟨hcycles, hmatches, c', hshows⟩ := h.step hcpu hp.plain
  have hstep : console.step = _ := onlyExecutes hp.running hp.uninterrupted
  have howed : (console.cpu.step console.bus).2.2.stall = console.bus.stall := by
    rw [Processor.step_stall, Processor.startsTransfer_plain hp.plain]
    rfl
  rw [hstep]
  dsimp only
  refine ⟨?_, hmatches, c', { hshows with }⟩
  rw [howed, hcycles]

/-- **A console and a processor on flat memory go in lockstep** while the console runs, takes no interrupt and makes plain
accesses only: every step costs the same, up to the stall that the bus owed before the first one, leaves the same
registers, pause flag and fault, and keeps the memory showing what the bus does.  The console counts a step's cycles in a
word, which only such a stall could make start over. -/
theorem lockstep {console : Console π} {cpu : Processor} {prg : Array UInt8} {memory : FlatMemory} {c : Cartridge}
    (hcpu : console.cpu.Matches cpu) (hmemory : memory.Shows prg console.bus c) {n : Nat}
    (hplain : ∀ i < n, (console.stepped i).StepsPlainly) :
    (∀ i < n,
      let cost := ((cpu.stepped memory i).1.step (cpu.stepped memory i).2).1
      let owed := if i = 0 then console.bus.stall else 0
      (console.stepped i).step.1 = UInt32.ofNat cost + owed ∧
        (owed + 7 < UInt32.size → ((console.stepped i).step.1 : Nat) = cost + owed)) ∧
      ∀ i ≤ n, (console.stepped i).cpu.Matches (cpu.stepped memory i).1 ∧
        ∃ c', (cpu.stepped memory i).2.Shows prg (console.stepped i).bus c' := by
  have hkept : ∀ i ≤ n, (console.stepped i).cpu.Matches (cpu.stepped memory i).1 ∧
      ∃ c', (cpu.stepped memory i).2.Shows prg (console.stepped i).bus c' := by
    intro i hi
    induction i with
    | zero => exact ⟨hcpu, c, hmemory⟩
    | succ i ih =>
      obtain ⟨hmatches, c', hshows⟩ := ih (Nat.le_of_succ_le hi)
      obtain ⟨-, hnext⟩ := (hplain i hi).step hshows hmatches
      rw [stepped_succ]
      exact hnext
  refine ⟨fun i hi => ?_, hkept⟩
  intro cost owed
  have howed : (console.stepped i).bus.stall = owed := by
    cases i with
    | zero => rfl
    | succ i =>
      -- the step before has collected what was owed
      rw [stepped_succ]
      exact step_collects (hplain i (Nat.lt_of_succ_lt hi)).running
  obtain ⟨hmatches, c', hshows⟩ := hkept i (Nat.le_of_lt hi)
  obtain ⟨hcycles, -⟩ := (hplain i hi).step hshows hmatches
  rw [howed] at hcycles
  refine ⟨hcycles, fun hrange => ?_⟩
  have hmost : cost ≤ 7 := ((cpu.stepped memory i).1.step_cycles (cpu.stepped memory i).2).1
  have hsum : cost + owed.toNat < UInt32.size := by omega
  rw [hcycles, UInt32.toNat_add, UInt32.toNat_ofNat', Nat.mod_add_mod]
  exact Nat.mod_eq_of_lt hsum

/-- A console whose line is low steps plainly if the processor does on flat memory. -/
theorem StepsPlainly.of_memory {console : Console π} {cpu : Processor} {prg : Array UInt8} {memory : FlatMemory}
    {c : Cartridge} (hcpu : console.cpu.Matches cpu) (h : memory.Shows prg console.bus c) (hirq : console.irq = false)
    (hrunning : cpu.paused = false) (hplain : ∀ access ∈ cpu.accesses memory, access.isPlain = true) :
    console.StepsPlainly where
  running := hcpu.paused.trans hrunning
  uninterrupted := by simp [takesIrq, hirq]
  plain := by
    have hfetch : Access.read cpu.registers.pc (cpu.opcode memory) ∈ cpu.accesses memory := List.mem_cons_self
    have hpc : console.cpu.registers.pc < 0x0800 ∨ 0x6000 ≤ console.cpu.registers.pc := by
      rw [hcpu.registers]
      simpa [Access.isPlain] using hplain _ hfetch
    have hlisted := (h.listedBus hpc).listedMemory cpu
    have hsame : console.cpu.accesses console.bus = cpu.accesses memory := by
      unfold Processor.accesses
      rw [hcpu.registers]
      exact hlisted.accesses_eq _ hplain
    rw [hsame]
    exact hplain

/-- **That a run is plain can be seen on flat memory**, by induction on the steps, which leave the line low. -/
theorem stepsPlainly_of_memory {console : Console π} {cpu : Processor} {prg : Array UInt8} {memory : FlatMemory}
    {c : Cartridge} (hcpu : console.cpu.Matches cpu) (h : memory.Shows prg console.bus c) (hirq : console.irq = false)
    {n : Nat} (hplain : ∀ i < n, (cpu.stepped memory i).1.paused = false ∧
      ∀ access ∈ (cpu.stepped memory i).1.accesses (cpu.stepped memory i).2, access.isPlain = true) :
    ∀ i < n, (console.stepped i).StepsPlainly := by
  have hkept : ∀ i ≤ n, (console.stepped i).cpu.Matches (cpu.stepped memory i).1 ∧ (console.stepped i).irq = false ∧
      ∃ c', (cpu.stepped memory i).2.Shows prg (console.stepped i).bus c' := by
    intro i hi
    induction i with
    | zero => exact ⟨hcpu, hirq, c, h⟩
    | succ i ih =>
      obtain ⟨hmatches, hlow, c', hshows⟩ := ih (Nat.le_of_succ_le hi)
      obtain ⟨hrunning, haccesses⟩ := hplain i hi
      obtain ⟨-, hnext, hleft⟩ := (StepsPlainly.of_memory hmatches hshows hlow hrunning haccesses).step hshows hmatches
      rw [stepped_succ]
      refine ⟨hnext, ?_, hleft⟩
      rw [step_irq, hlow, Bool.false_and]
  intro i hi
  obtain ⟨hmatches, hlow, c', hshows⟩ := hkept i (Nat.le_of_lt hi)
  exact .of_memory hmatches hshows hlow (hplain i hi).1 (hplain i hi).2

end Console

/-! ## Programs of one repeated byte -/

/-- Memory whose upper half holds one byte. -/
def FlatMemory.repeating (code : UInt8) : FlatMemory where
  bytes := .ofFn fun i => if i.val < 0x8000 then 0 else code

theorem FlatMemory.repeating_get (code : UInt8) (address : UInt16) :
    (repeating code).get address = if address < 0x8000 then 0 else code := by
  have hbound : address.toNat < 0x10000 := address.toNat_lt
  have hhalf : address.toNat < 0x8000 ↔ address < 0x8000 := by
    rw [UInt16.lt_iff_toNat_lt]
    rfl
  change (repeating code).bytes[address.toNat] = _
  simp only [repeating, Vector.getElem_ofFn, hhalf]

/-- A console about to run a program of one repeated byte. -/
def Console.repeating (c : Cartridge) : Console VideoLatch :=
  let console := Console.initial { value := 0 } false
  { console with
    cpu := { console.cpu with registers := { console.cpu.registers with pc := 0x8000 } }
    bus := console.bus.insert c }

/-- Such a cartridge can be built, and memory shows what it does. -/
theorem FlatMemory.repeating_shows (code : UInt8) :
    ∃ c, (repeating code).Shows (.replicate 0x2000 code) (Console.repeating c).bus c := by
  let source : CartridgeSource := { prg := .replicate 0x2000 code, chr := #[], number := 0 }
  obtain ⟨built, hbuilt⟩ := Cartridge.ofImages_ok source (by simp [source]) (by simp [source, prgBankSize]) rfl rfl
    .vertical
  let c : Cartridge := { built with prgRam := .replicate prgRamSize 0 }
  have hnrom : c.IsNrom source.prg := ⟨source.chr, .vertical, built, hbuilt, rfl, rfl, rfl⟩
  refine ⟨c, { inserted := rfl, nrom := hnrom, ram := ?_, prgRam := ?_, prg := ?_ }⟩
  · intro address h
    have hbound : address.toNat < workRamSize := UInt16.lt_iff_toNat_lt.1 h
    rw [repeating_get, if_pos (by grind)]
    simp [Console.repeating, Console.initial, ConsoleBus.insert, hbound]
  · intro address h h'
    obtain ⟨hleast, hindex⟩ := prgRam_index h h'
    have hbound : address.toNat % prgRamSize < prgRamSize := Nat.mod_lt _ (by decide)
    rw [repeating_get, if_pos h', ← hindex]
    simp [c, hbound]
  · intro address h
    have hbound : (address &&& 0x7FFF).toNat % 0x2000 < 0x2000 := Nat.mod_lt _ (by decide)
    rw [repeating_get, if_neg (by grind), Array.size_replicate, Array.getElem?_replicate, if_pos hbound]

/-- Empty memory shows a cartridge of zeros. -/
theorem FlatMemory.empty_shows : ∃ c, ({} : FlatMemory).Shows (.replicate 0x2000 0) (Console.repeating c).bus c := by
  obtain ⟨c, h⟩ := repeating_shows 0
  refine ⟨c, h.congr fun address => ?_⟩
  rw [repeating_get, get_empty, ite_self]

namespace FlatMemory.Shows

variable {π : Type} [VideoUnit π] {memory : FlatMemory} {bus : ConsoleBus π} {c : Cartridge} {code : UInt8} {size : Nat}

omit [VideoUnit π] in
theorem get_repeating (h : Shows (.replicate size code) memory bus c) {address : UInt16} (ha : 0x8000 ≤ address) :
    memory.get address = code := by
  have hget := h.prg address ha
  rw [Array.getElem?_replicate] at hget
  split at hget
  · exact (Option.some.inj hget).symm
  · cases hget

theorem opcode_repeating (h : Shows (.replicate size code) memory bus c) {cpu : Processor}
    (hpc : 0x8000 ≤ cpu.registers.pc) : cpu.opcode bus = code ∧ cpu.opcode memory = code := by
  have hplain : cpu.registers.pc < 0x0800 ∨ 0x6000 ≤ cpu.registers.pc := by grind
  constructor
  · exact ((h.listedBus hplain).read hplain).trans (h.get_repeating hpc)
  · exact (h.listedMemory cpu).get_repeating hpc

/-- An opcode that asks for nothing more makes one plain access. -/
theorem plain_repeating (h : Shows (.replicate size code) memory bus c) {cpu : Processor}
    (hpc : 0x8000 ≤ cpu.registers.pc) (hcode : ∀ r (bus : ConsoleBus π), (Registers.decoded r code).accesses bus = []) :
    ∀ access ∈ cpu.accesses bus, access.isPlain = true := by
  intro access hmem
  obtain ⟨hopcode, -⟩ := h.opcode_repeating hpc
  have haccesses : cpu.accesses bus = .read cpu.registers.pc (cpu.opcode bus) ::
      (cpu.registers.decoded (cpu.opcode bus)).accesses (Bus.read (cpu.listed bus) cpu.registers.pc).2 := rfl
  rw [haccesses, hopcode, hcode, List.mem_singleton] at hmem
  subst hmem
  have hplain : cpu.registers.pc < 0x0800 ∨ 0x6000 ≤ cpu.registers.pc := by grind
  simpa [Access.isPlain] using hplain

end FlatMemory.Shows

namespace Console

theorem repeating_plain {code : UInt8} {c : Cartridge}
    (h : (FlatMemory.repeating code).Shows (.replicate 0x2000 code) (repeating c).bus c)
    (hcode : ∀ r (bus : ConsoleBus VideoLatch), (Registers.decoded r code).accesses bus = []) :
    (repeating c).StepsPlainly :=
  { running := rfl, uninterrupted := rfl, plain := h.plain_repeating (UInt16.le_refl _) hcode }

/-- `LDA`, `STA`, `INC` and `PHA` from work RAM, with their stores there. -/
theorem lockstep_stores :
    let cpu := Processor.starting { s := 0xFD }
    let program : List (UInt16 × UInt8) := [(0, 0xA9), (1, 0x2A), (2, 0x85), (3, 0x10), (4, 0xE6), (5, 0x10), (6, 0x48)]
    let memory := program.foldl (fun memory byte => Bus.write memory byte.1 byte.2) ({} : FlatMemory)
    ∃ (console : Console VideoLatch) (c : Cartridge), console.cpu.Matches cpu ∧
      memory.Shows (.replicate 0x2000 0) console.bus c ∧ (∀ i < 4, (console.stepped i).StepsPlainly) ∧
      (∀ i < 4, ((console.stepped i).step.1 : Nat) = [2, 3, 5, 3].getD i 0) ∧
      (console.stepped 4).cpu.registers.a = 0x2A ∧ (console.stepped 4).cpu.registers.s = 0xFC ∧
      (console.stepped 4).bus.ram[0x10]? = some 0x2B ∧ (console.stepped 4).bus.ram[0x1FD]? = some 0x2A := by
  intro cpu program memory
  obtain ⟨built, hblank⟩ := FlatMemory.empty_shows
  let start := repeating built
  obtain ⟨c, hshows⟩ := hblank.writes program (by simp [program])
  let console : Console VideoLatch :=
    { start with cpu, bus := { program.foldl (fun bus byte => Bus.write bus byte.1 byte.2) start.bus with stall := 0 } }
  have hmatches : console.cpu.Matches cpu := ⟨rfl, rfl, rfl, rfl, rfl⟩
  have hmemory : memory.Shows (.replicate 0x2000 0) console.bus c := { hshows with }
  have hplain : ∀ i < 4, (console.stepped i).StepsPlainly :=
    stepsPlainly_of_memory hmatches hmemory rfl (by decide +kernel)
  obtain ⟨hcycles, hkept⟩ := lockstep hmatches hmemory hplain
  have hcosts : ∀ i < 4, ((cpu.stepped memory i).1.step (cpu.stepped memory i).2).1 = [2, 3, 5, 3].getD i 0 := by
    decide +kernel
  have hstall : console.bus.stall = 0 := rfl
  obtain ⟨hlast, c', hleft⟩ := hkept 4 (Nat.le_refl 4)
  refine ⟨console, c, hmatches, hmemory, hplain, fun i hi => ?_, ?_, ?_, ?_, ?_⟩
  · have hcost := (hcycles i hi).2
    rw [hcosts i hi, hstall, ite_self] at hcost
    exact hcost (by decide)
  · rw [hlast.registers]
    decide +kernel
  · rw [hlast.registers]
    decide +kernel
  · exact (hleft.ram 0x10 (by decide)).trans (by decide +kernel)
  · exact (hleft.ram 0x1FD (by decide)).trans (by decide +kernel)

/-- At an unmapped opcode both pause; then the console stays where it is, while a processor by itself goes on. -/
theorem parts_at_unmapped {π : Type} [VideoUnit π] {console : Console π} {cpu : Processor} {memory : FlatMemory}
    {c : Cartridge} {code : UInt8} {size : Nat} (hcode : Instruction.decode code = none)
    (hquiet : ∀ r (bus : ConsoleBus π), (Registers.decoded r code).accesses bus = [])
    (hshows : memory.Shows (.replicate size code) console.bus c) (hmatches : console.cpu.Matches cpu)
    (hpc : console.cpu.registers.pc = 0x8000) (hfirst : console.StepsPlainly) :
    (∀ i < 2, (console.stepped i).takesIrq = false ∧
      ∀ access ∈ (console.stepped i).cpu.accesses (console.stepped i).bus, access.isPlain = true) ∧
    (console.stepped 2).cpu.registers.pc = 0x8001 ∧ (cpu.stepped memory 2).1.registers.pc = 0x8002 := by
  -- the first step, which both take
  obtain ⟨-, hmatches', c', hshows'⟩ := hfirst.step hshows hmatches
  have hstart : 0x8000 ≤ cpu.registers.pc := by
    rw [← hmatches.registers, hpc]
    decide
  obtain ⟨-, hopcode⟩ := hshows.opcode_repeating hstart
  have hstep := Processor.step_unmapped (hopcode.symm ▸ hcode : Instruction.decode (cpu.opcode memory) = none)
  have hpaused : (cpu.step memory).2.1.paused = true := by
    rw [hstep]
    rfl
  have hpc₁ : (cpu.step memory).2.1.registers.pc = 0x8001 := by
    rw [hstep]
    change cpu.registers.pc + 1 = 0x8001
    rw [← hmatches.registers, hpc]
    decide
  have hpc₁' : console.step.2.cpu.registers.pc = 0x8001 := by rw [hmatches'.registers, hpc₁]
  have hstopped : console.step.2.cpu.paused = true := hmatches'.paused.trans hpaused
  -- the second step, which only flat memory sees
  have hsecond : 0x8000 ≤ (cpu.step memory).2.1.registers.pc := by
    rw [hpc₁]
    decide
  have hsecond' : 0x8000 ≤ console.step.2.cpu.registers.pc := by
    rw [hpc₁']
    decide
  obtain ⟨-, hopcode'⟩ := hshows'.opcode_repeating hsecond
  have hcode' : Instruction.decode ((cpu.step memory).2.1.opcode (cpu.step memory).2.2) = none := hopcode'.symm ▸ hcode
  have hstep' := Processor.step_unmapped hcode'
  refine ⟨fun i hi => ?_, ?_, ?_⟩
  · have hcases : i = 0 ∨ i = 1 := by omega
    obtain rfl | rfl := hcases
    · exact ⟨hfirst.uninterrupted, hfirst.plain⟩
    · rw [stepped_one]
      refine ⟨by simp [takesIrq, hstopped], ?_⟩
      exact hshows'.plain_repeating hsecond' hquiet
  · rw [stepped_succ, stepped_one, step_of_paused hstopped]
    exact hpc₁'
  · rw [Processor.stepped_succ, Processor.stepped_one, hstep']
    change (cpu.step memory).2.1.registers.pc + 1 = 0x8002
    rw [hpc₁]
    decide

/-- **Behind a pause the two part**, although every access is plain and no interrupt is taken. -/
theorem lockstep_ends_at_pause :
    ∃ (prg : Array UInt8) (memory : FlatMemory) (c : Cartridge) (console : Console VideoLatch) (cpu : Processor),
      console.cpu.Matches cpu ∧ memory.Shows prg console.bus c ∧
      (∀ i < 2, (console.stepped i).takesIrq = false ∧
        ∀ access ∈ (console.stepped i).cpu.accesses (console.stepped i).bus, access.isPlain = true) ∧
      (console.stepped 2).cpu.registers ≠ (cpu.stepped memory 2).1.registers := by
  obtain ⟨c, hshows⟩ := FlatMemory.repeating_shows 0x82
  have hmatches : (repeating c).cpu.Matches (repeating c).cpu := ⟨rfl, rfl, rfl, rfl, rfl⟩
  have hfirst : (repeating c).StepsPlainly := repeating_plain hshows fun _ _ => rfl
  obtain ⟨hplain, hpc, hpc'⟩ := parts_at_unmapped rfl (fun _ _ => rfl) hshows hmatches rfl hfirst
  refine ⟨_, _, c, repeating c, (repeating c).cpu, hmatches, hshows, hplain, fun heq => ?_⟩
  rw [heq, hpc'] at hpc
  exact absurd hpc (by decide)

end Console
end NesConsole
