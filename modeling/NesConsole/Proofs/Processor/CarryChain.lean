import NesConsole.Proofs.Processor.Addressing
import NesConsole.Proofs.Processor.Opcodes
/-!
# Arithmetic on numbers of several bytes

A processor of eight bits adds and subtracts longer numbers byte by byte: it loads a byte of the one, adds or subtracts
the byte of the other, stores the result, and C takes the carry or the borrow on to the next byte, since neither loads nor
stores touch it.  What one such round does is `Round.Runs.stepped`; by induction a chain of rounds adds as numbers are
added (`Chain.sums`), and so its result, the last C and the last V are those of the numbers (`Chain.arithmetic`).
-/
namespace NesConsole

/-! ## Single instructions -/

/-- The instruction at the program counter is this operation in this mode, on the byte at this address. -/
def FlatMemory.Holds (memory : FlatMemory) (r : Registers) (operation : Operation) (mode : AddressMode)
    (address : UInt16) : Prop :=
  operation.opcode? mode = some (memory.get r.pc) ∧ mode.effective? memory r = some address.toNat

namespace FlatMemory.Holds

variable {cpu : Processor} {memory : FlatMemory} {operation : Operation} {mode : AddressMode} {address : UInt16}

/-- A step does what the operation does to that address, once the registers are behind the instruction. -/
theorem step (h : memory.Holds cpu.registers operation mode address) :
    ∃ operand effect reads, operand.address = some address ∧
      ((operation.execute operand (cpu.registers.past mode)).perform { memory with reads }).1 = some effect ∧
      (cpu.step memory).2.1.registers = effect.registers ∧
      (cpu.step memory).2.2 =
        ((operation.execute operand (cpu.registers.past mode)).perform { memory with reads }).2 := by
  obtain ⟨hopcode, heffective⟩ := h
  rw [← cpu.opcode_flat memory] at hopcode
  obtain ⟨i, hdecode, rfl, rfl⟩ := Instruction.decode_iff.2 hopcode
  obtain ⟨haddress, reads, hresolved⟩ := cpu.resolved_flat memory i.mode
  obtain ⟨effect, heffect, -, hregisters, hbus⟩ := Processor.step_executes hdecode
  have hfound : (cpu.resolved memory i.mode).1.address = some address := by
    obtain ⟨found, hfound, heq⟩ := Option.map_eq_some_iff.1 (haddress.trans heffective)
    rw [hfound, UInt16.toNat_inj.1 heq]
  rw [hresolved] at heffect hbus
  exact ⟨_, effect, reads, hfound, heffect, hregisters, hbus⟩

theorem reads (change : Registers → UInt8 → Registers)
    (hform : ∀ operand r, operation.execute operand r = Operation.reading operand (change r))
    (h : memory.Holds cpu.registers operation mode address) :
    (cpu.step memory).2.1.registers = change (cpu.registers.past mode) (memory.get address) ∧
      ∀ other, (cpu.step memory).2.2.get other = memory.get other := by
  obtain ⟨operand, effect, reads, haddress, heffect, hregisters, hbus⟩ := h.step
  rw [hform, Operation.reading, haddress] at heffect hbus
  cases heffect
  exact ⟨hregisters, fun other => hbus ▸ rfl⟩

theorem stores (value : Registers → UInt8)
    (hform : ∀ operand r, operation.execute operand r = Operation.storing operand r (value r))
    (h : memory.Holds cpu.registers operation mode address) :
    (cpu.step memory).2.1.registers = cpu.registers.past mode ∧
      ∀ other, (cpu.step memory).2.2.get other =
        if other = address then value (cpu.registers.past mode) else memory.get other := by
  obtain ⟨operand, effect, reads, haddress, heffect, hregisters, hbus⟩ := h.step
  rw [hform, Operation.storing, haddress] at heffect hbus
  cases heffect
  exact ⟨hregisters, fun other => hbus ▸ get_write _ _ _ _⟩

end FlatMemory.Holds

/-! ## Rounds -/

/-- Load, add or subtract, and store: the modes of the three instructions, and the addresses of their bytes. -/
structure Round where
  load : AddressMode
  combine : AddressMode
  store : AddressMode
  left : UInt16
  right : UInt16
  result : UInt16

/-- The operation of a round that adds, or subtracts. -/
def combining (subtract : Bool) : Operation := if subtract then .sbc else .adc

/-- What is added to A: subtraction adds the complement. -/
def addend (subtract : Bool) (value : UInt8) : UInt8 := if subtract then ~~~value else value

theorem execute_combining (subtract : Bool) (operand : Operand) (r : Registers) :
    (combining subtract).execute operand r = Operation.reading operand fun value => r.addToA (addend subtract value) := by
  cases subtract <;> rfl

/-- The three instructions to come are those of the round. -/
structure Round.Runs (subtract : Bool) (round : Round) (cpu : Processor) (memory : FlatMemory) : Prop where
  loads : memory.Holds cpu.registers .lda round.load round.left
  combines : (cpu.stepped memory 1).2.Holds (cpu.stepped memory 1).1.registers (combining subtract) round.combine
    round.right
  stores : (cpu.stepped memory 2).2.Holds (cpu.stepped memory 2).1.registers .sta round.store round.result

/-- **A round adds one byte**, with C as it found it, and stores the sum. -/
theorem Round.Runs.stepped {subtract : Bool} {round : Round} {cpu : Processor} {memory : FlatMemory}
    (h : round.Runs subtract cpu memory) :
    ∃ r : Registers, r.a = memory.get round.left ∧ r.p.carry = cpu.registers.p.carry ∧
      (cpu.stepped memory 3).1.registers.p = (r.addToA (addend subtract (memory.get round.right))).p ∧
      ∀ other, (cpu.stepped memory 3).2.get other =
        if other = round.result then (r.addToA (addend subtract (memory.get round.right))).a else memory.get other := by
  obtain ⟨hloaded, hload⟩ := h.loads.reads Registers.setA fun _ _ => rfl
  obtain ⟨hcombined, hcombine⟩ := h.combines.reads (fun r value => r.addToA (addend subtract value))
    (execute_combining subtract)
  obtain ⟨hstored, hstore⟩ := h.stores.stores Registers.a fun _ _ => rfl
  let r := (cpu.stepped memory 1).1.registers.past round.combine
  have hr : r = { (cpu.registers.past round.load).setA (memory.get round.left) with pc := r.pc } :=
    congrArg (fun registers : Registers => { registers with pc := r.pc }) hloaded
  have hright : (cpu.stepped memory 1).2.get round.right = memory.get round.right := hload _
  rw [hright] at hcombined
  have hsum : (cpu.stepped memory 2).1.registers = r.addToA (addend subtract (memory.get round.right)) := hcombined
  refine ⟨r, hr ▸ rfl, hr ▸ rfl, ?_, fun other => ?_⟩
  · rw [Processor.stepped_succ, hstored, ← hsum]
    rfl
  · have hkept : (cpu.stepped memory 2).2.get other = memory.get other := (hcombine other).trans (hload other)
    rw [Processor.stepped_succ, hstore, hkept, ← hsum]
    rfl

/-! ## Chains of rounds -/

/-- The rounds are executed one after the other. -/
def Chain (subtract : Bool) : List Round → Processor → FlatMemory → Prop
  | [], _, _ => True
  | round :: rest, cpu, memory =>
    round.Runs subtract cpu memory ∧ Chain subtract rest (cpu.stepped memory 3).1 (cpu.stepped memory 3).2

/-- **A chain of rounds adds byte by byte**, and changes no cell but those of its results. -/
theorem Chain.sums {subtract : Bool} {rounds : List Round} (hne : rounds ≠ []) {cpu : Processor} {memory : FlatMemory}
    (h : Chain subtract rounds cpu memory)
    (hreads : rounds.Pairwise fun round later => round.result ≠ later.left ∧ round.result ≠ later.right) :
    let final := cpu.stepped memory (3 * rounds.length)
    ∃ sums, Sums cpu.registers.p.carry (rounds.map fun round => memory.get round.left)
        (rounds.map fun round => addend subtract (memory.get round.right)) sums
        final.1.registers.p.carry final.1.registers.p.overflow ∧
      (∀ other, (∀ round ∈ rounds, other ≠ round.result) → final.2.get other = memory.get other) ∧
      ((rounds.map Round.result).Nodup → (rounds.map fun round => final.2.get round.result) = sums) := by
  induction rounds generalizing cpu memory with
  | nil => exact absurd rfl hne
  | cons round rest ih =>
    obtain ⟨hround, hrest⟩ := h
    obtain ⟨hresult, hlater⟩ := List.pairwise_cons.1 hreads
    obtain ⟨r, ha, hcarry, hp, hget⟩ := hround.stepped
    intro final
    have hfinal : final = (cpu.stepped memory 3).1.stepped (cpu.stepped memory 3).2 (3 * rest.length) := by
      rw [← Processor.stepped_add, Nat.add_comm]
      rfl
    let value := addend subtract (memory.get round.right)
    have hlefts : (rest.map fun later => (cpu.stepped memory 3).2.get later.left) =
        rest.map fun later => memory.get later.left :=
      List.map_congr_left fun later hmem => by rw [hget, if_neg (hresult later hmem).1.symm]
    have hrights : (rest.map fun later => addend subtract ((cpu.stepped memory 3).2.get later.right)) =
        rest.map fun later => addend subtract (memory.get later.right) :=
      List.map_congr_left fun later hmem => by rw [hget, if_neg (hresult later hmem).2.symm]
    rw [List.map_cons, List.map_cons, ← ha, ← hcarry]
    by_cases hlast : rest = []
    · subst hlast
      refine ⟨[(r.addToA value).a], ?_, fun other hother => ?_, fun _ => ?_⟩
      · show Sums _ _ _ _ (cpu.stepped memory 3).1.registers.p.carry (cpu.stepped memory 3).1.registers.p.overflow
        rw [hp]
        exact .one r value
      · exact (hget other).trans (if_neg (hother round List.mem_cons_self))
      · exact congrArg ([·]) ((hget round.result).trans (if_pos rfl))
    · obtain ⟨sums, hsums, hkept, hstands⟩ := ih hlast hrest hlater
      rw [hlefts, hrights, hp] at hsums
      rw [hfinal]
      refine ⟨(r.addToA value).a :: sums, ?_, fun other hother => ?_, fun hnodup => ?_⟩
      · exact .cons r value (mt List.map_eq_nil_iff.1 hlast) hsums
      · rw [hkept other fun later hmem => hother later (List.mem_cons_of_mem _ hmem), hget,
          if_neg (hother round List.mem_cons_self)]
      · obtain ⟨hfresh, hnodup⟩ := List.nodup_cons.1 hnodup
        have hown := hkept round.result fun later hmem heq => hfresh (heq ▸ List.mem_map_of_mem hmem)
        rw [List.map_cons, hstands hnodup, hown, hget, if_pos rfl]

/-! ## Programs -/

/-- The cells that an instruction is made of, with the pointer it may name. -/
def FlatMemory.codeCells (memory : FlatMemory) (r : Registers) (mode : AddressMode) : List Nat :=
  r.pc.toNat :: mode.cells memory r

theorem FlatMemory.Holds.congr {memory memory' : FlatMemory} {r r' : Registers} {operation : Operation}
    {mode : AddressMode} {address : UInt16} (hr : r.Addresses r')
    (hsame : ∀ cell ∈ memory.codeCells r mode, memory'.byteAt cell = memory.byteAt cell)
    (h : memory.Holds r operation mode address) : memory'.Holds r' operation mode address := by
  have hopcode : memory'.get r'.pc = memory.get r.pc := by
    rw [hr.pc, ← memory.byteAt_toNat, ← memory'.byteAt_toNat]
    exact hsame _ List.mem_cons_self
  have heffective := mode.effective_congr hr fun cell hmem => hsame cell (List.mem_cons_of_mem _ hmem)
  exact ⟨hopcode ▸ h.1, heffective.trans h.2⟩

namespace Round

def past (round : Round) (r : Registers) : Registers := ((r.past round.load).past round.combine).past round.store

def cells (round : Round) (memory : FlatMemory) (r : Registers) : List Nat :=
  memory.codeCells r round.load ++ (memory.codeCells (r.past round.load) round.combine ++
    memory.codeCells ((r.past round.load).past round.combine) round.store)

/-- The three instructions of the round stand in memory, one behind the other. -/
structure Stands (subtract : Bool) (round : Round) (memory : FlatMemory) (r : Registers) : Prop where
  loads : memory.Holds r .lda round.load round.left
  combines : memory.Holds (r.past round.load) (combining subtract) round.combine round.right
  stores : memory.Holds ((r.past round.load).past round.combine) .sta round.store round.result

theorem Stands.runs {subtract : Bool} {round : Round} {memory memory' : FlatMemory} {r : Registers} {cpu : Processor}
    (h : round.Stands subtract memory r) (hr : r.Addresses cpu.registers)
    (hsame : ∀ cell ∈ round.cells memory r, memory'.byteAt cell = memory.byteAt cell) :
    round.Runs subtract cpu memory' ∧ (round.past r).Addresses (cpu.stepped memory' 3).1.registers := by
  have hsame' (n : Nat) (hkept : ∀ other, (cpu.stepped memory' n).2.get other = memory'.get other) :
      ∀ cell ∈ round.cells memory r, (cpu.stepped memory' n).2.byteAt cell = memory.byteAt cell :=
    fun cell hmem => (hkept _).trans (hsame cell hmem)
  have hloads := h.loads.congr hr fun cell hmem => hsame cell (List.mem_append_left _ hmem)
  obtain ⟨hloaded, hload⟩ := hloads.reads Registers.setA fun _ _ => rfl
  have hr1 : (r.past round.load).Addresses (cpu.stepped memory' 1).1.registers := by
    have hpast := hr.past round.load
    show Registers.Addresses _ (cpu.step memory').2.1.registers
    rw [hloaded]
    exact ⟨hpast.pc, hpast.x, hpast.y⟩
  have hcombines := h.combines.congr hr1 fun cell hmem =>
    hsame' 1 hload cell (List.mem_append_right _ (List.mem_append_left _ hmem))
  obtain ⟨hcombined, hcombine⟩ := hcombines.reads (fun r value => r.addToA (addend subtract value))
    (execute_combining subtract)
  have hr2 : ((r.past round.load).past round.combine).Addresses (cpu.stepped memory' 2).1.registers := by
    have hpast := hr1.past round.combine
    rw [Processor.stepped_succ, hcombined]
    exact ⟨hpast.pc, hpast.x, hpast.y⟩
  have hstores := h.stores.congr hr2 fun cell hmem =>
    hsame' 2 (fun other => (hcombine other).trans (hload other)) cell
      (List.mem_append_right _ (List.mem_append_right _ hmem))
  obtain ⟨hstored, -⟩ := hstores.stores Registers.a fun _ _ => rfl
  refine ⟨⟨hloads, hcombines, hstores⟩, ?_⟩
  rw [Processor.stepped_succ, hstored]
  exact hr2.past round.store

end Round

/-- The cells that rounds from here on are made of. -/
def roundCells (memory : FlatMemory) : List Round → Registers → List Nat
  | [], _ => []
  | round :: rest, r => round.cells memory r ++ roundCells memory rest (round.past r)

/-- The rounds stand in memory, one behind the other, and no result is stored where a later one stands. -/
def Program (subtract : Bool) (memory : FlatMemory) : List Round → Registers → Prop
  | [], _ => True
  | round :: rest, r =>
    round.Stands subtract memory r ∧ round.result ∉ (roundCells memory rest (round.past r)).map UInt16.ofNat ∧
      Program subtract memory rest (round.past r)

/-- **A program of rounds is executed round by round.** -/
theorem Program.chain {subtract : Bool} {rounds : List Round} {memory memory' : FlatMemory} {r : Registers}
    {cpu : Processor} (h : Program subtract memory rounds r) (hr : r.Addresses cpu.registers)
    (hsame : ∀ cell ∈ roundCells memory rounds r, memory'.byteAt cell = memory.byteAt cell) :
    Chain subtract rounds cpu memory' := by
  induction rounds generalizing r cpu memory' with
  | nil => trivial
  | cons round rest ih =>
    obtain ⟨hstands, hresult, hrest⟩ := h
    obtain ⟨hruns, hpast⟩ := hstands.runs hr fun cell hmem => hsame cell (List.mem_append_left _ hmem)
    obtain ⟨_, -, -, -, hget⟩ := hruns.stepped
    refine ⟨hruns, ih hrest hpast fun cell hmem => ?_⟩
    have hother : UInt16.ofNat cell ≠ round.result := fun heq => hresult (heq ▸ List.mem_map_of_mem hmem)
    refine Eq.trans ?_ (hsame cell (List.mem_append_right _ hmem))
    exact (hget _).trans (if_neg hother)

/-! ## Arithmetic -/

/-- The result of adding, or subtracting. -/
def combined (subtract : Bool) (a b : Int) : Int := if subtract then a - b else a + b

theorem FlatMemory.number_map {ι : Type} (memory : FlatMemory) (addresses : ι → UInt16) (indices : List ι) :
    memory.number (indices.map fun i => (addresses i).toNat) =
      littleEndian (indices.map fun i => memory.get (addresses i)) := by
  rw [number, List.map_map]
  exact congrArg _ (List.map_congr_left fun i _ => memory.byteAt_toNat (addresses i))

theorem Sums.numbers {subtract : Bool} {as bs sums : List UInt8} {carry overflow : Bool} (hne : as ≠ [])
    (h : Sums subtract as (bs.map (addend subtract)) sums carry overflow) :
    (littleEndian sums : Int) = combined subtract (littleEndian as) (littleEndian bs) % (0x100 ^ as.length : Nat) ∧
      (carry = true ↔
        if subtract then littleEndian bs ≤ littleEndian as else 0x100 ^ as.length ≤ littleEndian as + littleEndian bs) ∧
      (overflow = true ↔ ¬Representable as.length
        (combined subtract (signed as.length (littleEndian as)) (signed as.length (littleEndian bs)))) := by
  cases subtract with
  | false =>
    have hplain : bs.map (addend false) = bs := List.map_id' bs
    rw [hplain] at h
    exact h.added
  | true => exact h.subtracted hne

/-- **Chained arithmetic is arithmetic on numbers of several bytes**: from a C that is clear a chain of rounds adds them,
and from a C that is set it subtracts them.  The result is right modulo `0x100 ^ n`, the last C is the carry, or tells that
nothing was borrowed, and the last V tells that the signed result cannot be represented. -/
theorem Chain.arithmetic (subtract : Bool) {rounds : List Round} (hne : rounds ≠ []) {cpu : Processor}
    {memory : FlatMemory} (h : Chain subtract rounds cpu memory)
    (hreads : rounds.Pairwise fun round later => round.result ≠ later.left ∧ round.result ≠ later.right)
    (hstart : cpu.registers.p.carry = subtract) :
    let n := rounds.length
    let a := memory.number (rounds.map (·.left.toNat))
    let b := memory.number (rounds.map (·.right.toNat))
    let final := cpu.stepped memory (3 * n)
    ((rounds.map Round.result).Nodup →
        (final.2.number (rounds.map (·.result.toNat)) : Int) = combined subtract a b % (0x100 ^ n : Nat)) ∧
      (final.1.registers.p.carry = true ↔ if subtract then b ≤ a else 0x100 ^ n ≤ a + b) ∧
      (final.1.registers.p.overflow = true ↔ ¬Representable n (combined subtract (signed n a) (signed n b))) := by
  intro n a b final
  obtain ⟨sums, hsums, -, hstands⟩ := h.sums hne hreads
  have hrights : (rounds.map fun round => addend subtract (memory.get round.right)) =
      (rounds.map fun round => memory.get round.right).map (addend subtract) := by
    rw [List.map_map]
    rfl
  rw [hstart, hrights] at hsums
  obtain ⟨hsum, hcarry, hoverflow⟩ := hsums.numbers (mt List.map_eq_nil_iff.1 hne)
  rw [List.length_map, ← memory.number_map, ← memory.number_map] at hsum hcarry hoverflow
  refine ⟨fun hnodup => ?_, hcarry, hoverflow⟩
  rw [FlatMemory.number_map, hstands hnodup]
  exact hsum

/-- Two rounds in zero page add 1 to `$7FFF`, which gives no carry but overflows. -/
theorem Chain.arithmetic_overflows :
    let memory := ({} : FlatMemory).load 0
      [0xA5, 0x0C, 0x65, 0x0E, 0x85, 0x10, 0xA5, 0x0D, 0x65, 0x0F, 0x85, 0x11, 0xFF, 0x7F, 0x01, 0x00]
    let final := (Processor.starting {}).stepped memory 6
    final.2.number [0x10, 0x11] = 0x8000 ∧ final.1.registers.p.carry = false ∧
      final.1.registers.p.overflow = true := by
  intro memory final
  let rounds : List Round := [⟨.zeroPage, .zeroPage, .zeroPage, 0x0C, 0x0E, 0x10⟩,
    ⟨.zeroPage, .zeroPage, .zeroPage, 0x0D, 0x0F, 0x11⟩]
  have hget (address : UInt16) : memory.get address =
      [0xA5, 0x0C, 0x65, 0x0E, 0x85, 0x10, 0xA5, 0x0D, 0x65, 0x0F, 0x85, 0x11, 0xFF, 0x7F, 0x01,
        0x00][(address - 0).toNat]?.getD 0 := by
    rw [FlatMemory.get_load _ _ (by decide), FlatMemory.get_empty]
  have hholds {operation : Operation} {r : Registers} {address : UInt16}
      (hcode : operation.opcode? .zeroPage = some (memory.get r.pc))
      (hoperand : (memory.get (r.pc + 1)).toNat = address.toNat) : memory.Holds r operation .zeroPage address :=
    ⟨hcode, congrArg some ((memory.number_one _).trans hoperand)⟩
  have hprogram : Program false memory rounds {} := by
    refine ⟨⟨?_, ?_, ?_⟩, by decide, ⟨?_, ?_, ?_⟩, by decide, trivial⟩
    all_goals apply hholds <;> rw [hget] <;> decide
  have hchain : Chain false rounds {} memory := hprogram.chain ⟨rfl, rfl, rfl⟩ fun _ _ => rfl
  have ha : memory.number (rounds.map (·.left.toNat)) = 0x7FFF := by
    rw [FlatMemory.number_map, funext hget]
    rfl
  have hb : memory.number (rounds.map (·.right.toNat)) = 1 := by
    rw [FlatMemory.number_map, funext hget]
    rfl
  obtain ⟨hsum, hcarry, hoverflow⟩ := Chain.arithmetic false (by decide) hchain (by decide) (by decide)
  rw [ha, hb] at hsum hcarry hoverflow
  refine ⟨?_, ?_, ?_⟩
  · exact Int.ofNat_inj.1 (hsum (by decide))
  · exact Bool.eq_false_iff.2 fun h => absurd (hcarry.1 h) (by decide)
  · apply hoverflow.2
    decide

end NesConsole
