import TapeMachine.Proofs.Machine.Lockstep

/-!
# Two places for the same run

A head that is never reduced goes over all integers, and a tape is what these positions are counted
round: `Tape.valueAt` is the value at a position. Which tape it is does not matter to a run as long
as two positions share a cell of the one tape exactly where they share a cell of the other.

`Store.Placed` relates two stores by the positions of a window, on which both tapes hold the same
up to a shift. `Placed.perform` is the step lemma: a command that keeps the head in the window has
the same result on both sides. `Machine.run_placed` and `Machine.execute_placed` carry it to whole
runs. That the head keeps in the window is all that they ask of a run, so that one proof serves
rotated tapes, where the window holds all positions, and tapes of different sizes, where it is the
span of the run.
-/

namespace TapeMachine

/-! ## Positions counted round a tape -/

namespace Tape

/-- The cell that a position comes to when it is counted round the tape. -/
def cellAt (tape : Tape) (position : Int) : Fin tape.size :=
  ⟨(position % tape.size).toNat, by
    have hpos : (0 : Int) < tape.size := Int.natCast_pos.mpr tape.nonempty
    have hnonneg := Int.emod_nonneg position (Int.ne_of_gt hpos)
    have hlt := Int.emod_lt_of_pos position hpos
    omega⟩

/-- The value at a position counted round the tape. -/
def valueAt (tape : Tape) (position : Int) : UInt8 :=
  tape.get (tape.cellAt position)

variable (tape : Tape) (position other : Int)

/-- Counted round the tape, a position lies on it. -/
theorem emod_size_bounds : 0 ≤ position % tape.size ∧ position % tape.size < tape.size := by
  have hpos : (0 : Int) < tape.size := Int.natCast_pos.mpr tape.nonempty
  exact ⟨Int.emod_nonneg position (Int.ne_of_gt hpos), Int.emod_lt_of_pos position hpos⟩

/-- A reduced position addresses its cell. -/
theorem resolveIndex_emod :
    resolveIndex tape.size (position % tape.size) = .ok (tape.cellAt position) := by
  obtain ⟨hnonneg, hlt⟩ := tape.emod_size_bounds position
  exact resolveIndex_of_lt hnonneg hlt

/-- Two positions share a cell exactly where they are congruent. -/
theorem cellAt_eq_iff :
    tape.cellAt position = tape.cellAt other ↔ position % tape.size = other % tape.size := by
  have hposition := (tape.emod_size_bounds position).1
  have hother := (tape.emod_size_bounds other).1
  unfold cellAt
  rw [Fin.mk.injEq]
  omega

/-- Congruent positions have the same value. -/
theorem valueAt_congr {tape : Tape} {position other : Int}
    (h : position % tape.size = other % tape.size) :
    tape.valueAt position = tape.valueAt other := by
  unfold valueAt
  rw [(tape.cellAt_eq_iff position other).mpr h]

/-- A position on the tape is its own cell. -/
theorem valueAt_of_lt {cell : Nat} (h : cell < tape.size) :
    tape.valueAt cell = tape.get ⟨cell, h⟩ := by
  unfold valueAt cellAt
  congr 2
  rw [Int.emod_eq_of_lt (Int.natCast_nonneg cell) (Int.ofNat_lt.mpr h), Int.toNat_natCast]

/-- After one cell has been overwritten all the others hold what they held. -/
theorem get_set (cell : Fin tape.size) (value : UInt8)
    (later : Fin (tape.set cell value).size) :
    (tape.set cell value).get later =
      if cell.val = later.val then value
      else tape.get ⟨later, by simpa using later.isLt⟩ :=
  Array.getElem_set cell.isLt later.isLt

/-- Overwriting the cell of a position changes the value at the positions that share it. -/
theorem valueAt_set (value : UInt8) :
    (tape.set (tape.cellAt position) value).valueAt other =
      if position % tape.size = other % tape.size then value else tape.valueAt other := by
  have hcell : ((tape.set (tape.cellAt position) value).cellAt other).val =
      (tape.cellAt other).val := by
    show (other % (tape.set (tape.cellAt position) value).size).toNat = _
    rw [size_set]
    rfl
  unfold valueAt
  rw [get_set]
  simp only [hcell, Fin.eta, ← Fin.ext_iff, cellAt_eq_iff]

/-- Every position of a blank tape has the value zero. -/
@[simp] theorem valueAt_blank {size : Nat} (size_pos : 0 < size) :
    (blank size size_pos).valueAt position = 0 := by
  simp [valueAt, get, blank]

/-- Tapes of one size with the same value at every position are the same. -/
theorem ext_valueAt {tape other : Tape} (hsize : tape.size = other.size)
    (h : ∀ position, tape.valueAt position = other.valueAt position) : tape = other := by
  obtain ⟨cells, hcells⟩ := tape
  obtain ⟨cells', hcells'⟩ := other
  congr 1
  refine Array.ext hsize ?_
  intro cell hcell hcell'
  have hvalue := h cell
  rw [valueAt_of_lt _ hcell, valueAt_of_lt _ hcell'] at hvalue
  exact hvalue

end Tape

/-! ## Displacements -/

/-- How far a command moves a head that is not reduced. -/
def Command.displacement : Command → Int
  | move delta => signedOffset delta
  | add _ | write | read => 0

/-- How far an instruction moves a head that is not reduced. -/
def Instruction.displacement : Instruction → Int
  | command c => c.displacement
  | loopStart _ | loopEnd _ => 0

/-- How far the instruction at the program counter moves a head that is not reduced. -/
def Machine.displacement {σ : Type} (code : Code) (machine : Machine σ) : Int :=
  match code.fetch machine.index with
  | .ok instruction => instruction.displacement
  | .error _ => 0

/-! ## Stores in two places -/

/-- Positions of the window share a cell of a tape of the first size exactly where they share one,
`shift` further on, of a tape of the second size. -/
def Matching (window : Int → Prop) (shift : Int) (size size' : Nat) : Prop :=
  ∀ position other, window position → window other →
    (position % size = other % size ↔ (position + shift) % size' = (other + shift) % size')

/-- Both stores have their head at the same position of the window, with the same device beside it,
and hold the same values at all positions of the window. On the second tape all positions are
`shift` further on. -/
structure Store.Placed {σ : Type} (window : Int → Prop) (shift : Int) (size size' : Nat)
    (head : Int) (store other : Store σ) : Prop where
  tape_size : store.tape.size = size
  tape_size' : other.tape.size = size'
  mem : window head
  pointer_eq : store.pointer = head % size
  pointer_eq' : other.pointer = (head + shift) % size'
  valueAt_eq : ∀ position, window position →
    other.tape.valueAt (position + shift) = store.tape.valueAt position
  device_eq : other.device = store.device

variable {σ ε : Type} {window : Int → Prop} {shift head : Int} {size size' : Nat}

namespace Store

variable {store other : Store σ}

/-- The first head addresses the cell of its position. -/
theorem Placed.resolveIndex_eq (h : Placed window shift size size' head store other) :
    resolveIndex store.tape.size store.pointer = .ok (store.tape.cellAt head) := by
  rw [h.pointer_eq, ← h.tape_size]
  exact store.tape.resolveIndex_emod head

/-- The second head addresses the cell of its position. -/
theorem Placed.resolveIndex_eq' (h : Placed window shift size size' head store other) :
    resolveIndex other.tape.size other.pointer = .ok (other.tape.cellAt (head + shift)) := by
  rw [h.pointer_eq', ← h.tape_size']
  exact other.tape.resolveIndex_emod (head + shift)

/-- The value under both heads is the same. -/
theorem Placed.current_eq (h : Placed window shift size size' head store other) :
    (store.current : Except (Fault ε) UInt8) = other.current := by
  have hvalue : other.tape.valueAt (head + shift) = store.tape.valueAt head :=
    h.valueAt_eq head h.mem
  unfold current
  rw [h.resolveIndex_eq, h.resolveIndex_eq']
  exact congrArg Except.ok hvalue.symm

/-- Writing the same value under both heads leaves the stores in their places, whatever has become
of their device meanwhile. -/
theorem Placed.set (hmatch : Matching window shift size size')
    (h : Placed window shift size size' head store other) (value : UInt8) (device : σ) :
    Placed window shift size size' head
      ⟨store.tape.set (store.tape.cellAt head) value, store.pointer, device⟩
      ⟨other.tape.set (other.tape.cellAt (head + shift)) value, other.pointer, device⟩ := by
  constructor
  case tape_size => rw [Tape.size_set, h.tape_size]
  case tape_size' => rw [Tape.size_set, h.tape_size']
  case mem => exact h.mem
  case pointer_eq => exact h.pointer_eq
  case pointer_eq' => exact h.pointer_eq'
  case valueAt_eq =>
    intro position hposition
    have hcell := hmatch head position h.mem hposition
    have hvalue := h.valueAt_eq position hposition
    rw [Tape.valueAt_set, Tape.valueAt_set, h.tape_size, h.tape_size', hvalue]
    simp only [hcell]
  case device_eq => rfl

variable [Device σ ε]

/-- A command that keeps the head in the window has the same result in both places. -/
theorem Placed.perform (hmatch : Matching window shift size size')
    (h : Placed window shift size size' head store other) (c : Command)
    (hmem : window (head + c.displacement)) :
    ∃ result after after', store.perform c = (result, after) ∧ other.perform c = (result, after') ∧
      Placed window shift size size' (head + c.displacement) after after' := by
  have hcell := h.resolveIndex_eq
  have hcell' := h.resolveIndex_eq'
  have hvalue : other.tape.valueAt (head + shift) = store.tape.valueAt head :=
    h.valueAt_eq head h.mem
  have hset := h.set hmatch
  obtain ⟨tape, pointer, device⟩ := store
  obtain ⟨tape', pointer', device'⟩ := other
  obtain rfl : device' = device := h.device_eq
  -- whatever a call makes of the device, the two stores keep their places
  have hcalled (after : σ) : Placed window shift size size' (head + 0)
      ⟨tape, pointer, after⟩ ⟨tape', pointer', after⟩ := by
    rw [Int.add_zero]
    exact ⟨h.tape_size, h.tape_size', h.mem, h.pointer_eq, h.pointer_eq', h.valueAt_eq, rfl⟩
  cases c with
  | add delta =>
      simp only [Store.perform, hcell, hcell']
      refine ⟨_, _, _, rfl, rfl, ?_⟩
      have hsame : tape'.get (tape'.cellAt (head + shift)) = tape.get (tape.cellAt head) := hvalue
      rw [hsame]
      show Placed window shift size size' (head + 0) _ _
      rw [Int.add_zero]
      exact hset _ device'
  | move delta =>
      refine ⟨_, _, _, rfl, rfl, h.tape_size, h.tape_size', hmem, ?_, ?_, h.valueAt_eq, rfl⟩
      · show (pointer + signedOffset delta) % tape.size = (head + signedOffset delta) % size
        rw [h.tape_size, show pointer = head % size from h.pointer_eq, Int.emod_add_emod]
      · show (pointer' + signedOffset delta) % tape'.size =
          (head + signedOffset delta + shift) % size'
        rw [h.tape_size', show pointer' = (head + shift) % size' from h.pointer_eq',
          Int.emod_add_emod, Int.add_right_comm]
  | write =>
      have hsame : tape'.get (tape'.cellAt (head + shift)) = tape.get (tape.cellAt head) := hvalue
      simp only [Store.perform, hcell, hcell', hsame]
      rcases Device.write (tape.get (tape.cellAt head)) device' with ⟨_ | _, after⟩
      · exact ⟨_, _, _, rfl, rfl, hcalled after⟩
      · exact ⟨_, _, _, rfl, rfl, hcalled after⟩
  | read =>
      simp only [Store.perform, hcell, hcell']
      rcases Device.read device' with ⟨_ | value, after⟩
      · exact ⟨_, _, _, rfl, rfl, hcalled after⟩
      · refine ⟨_, _, _, rfl, rfl, ?_⟩
        show Placed window shift size size' (head + 0) _ _
        rw [Int.add_zero]
        exact hset _ after

/-- An instruction that keeps the head in the window is obeyed alike in both places. -/
theorem Placed.obey (hmatch : Matching window shift size size')
    (h : Placed window shift size size' head store other) (index : Int)
    (instruction : Instruction) (hmem : window (head + instruction.displacement)) :
    ∃ result after after', store.obey index instruction = (result, after) ∧
      other.obey index instruction = (result, after') ∧
      Placed window shift size size' (head + instruction.displacement) after after' := by
  refine obey_alike ?_ ?_ index
  · intro c hc
    subst hc
    exact h.perform hmatch c hmem
  · intro hloop
    have hstays : instruction.displacement = 0 := by
      cases instruction with
      | command c => exact absurd rfl (hloop c)
      | loopStart | loopEnd => rfl
    rw [hstays, Int.add_zero]
    exact ⟨h.current_eq, h⟩

end Store

/-! ## Machines in two places -/

namespace Machine

open Store

variable [Device σ ε] {code : Code} {limit : Option Int} {machine other : Machine σ}

variable (code) in
/-- The next instruction has the same result in both places if it keeps the head in the window. -/
theorem next_placed (hmatch : Matching window shift size size')
    (h : Alongside (Placed window shift size size' head) machine other)
    (hmem : window (head + displacement code machine)) :
    ∃ result following following', machine.next code = (result, following) ∧
      other.next code = (result, following') ∧
      Alongside (Placed window shift size size' (head + displacement code machine))
        following following' := by
  obtain ⟨index, steps, h⟩ := h
  unfold displacement at hmem ⊢
  refine next_alike steps ?_ ?_
  · intro kind hfetch
    simp only [hfetch, Int.add_zero]
    exact h
  · intro instruction hfetch
    simp only [hfetch] at hmem ⊢
    exact h.obey hmatch index instruction hmem

variable {following final : Machine σ} {fault : Fault ε} {outcome : Outcome ε}

/-- An instruction that fails does not move the head. -/
theorem displacement_of_next_error (h : machine.next code = (.error fault, final)) :
    displacement code machine = 0 := by
  unfold displacement
  obtain ⟨kind, hfetch, _, _⟩ | ⟨instruction, store, hfetch, hobey, _⟩ := next_eq_error_iff.mp h
  · rw [hfetch]
  · rw [hfetch]
    cases instruction with
    | loopStart | loopEnd => rfl
    | command c =>
        cases c with
        | add | write | read => rfl
        | move delta => cases hobey

/-- Both machines take the next step if it keeps the head in the window. -/
theorem step_placed (hmatch : Matching window shift size size')
    (h : Alongside (Placed window shift size size' head) machine other)
    (hstep : step? code machine = some following)
    (hmem : window (head + displacement code machine)) :
    ∃ following', step? code other = some following' ∧
      Alongside (Placed window shift size size' (head + displacement code machine))
        following following' := by
  obtain ⟨-, hnext⟩ := step?_eq_some_iff.mp hstep
  obtain ⟨_, _, following', hnext', hother, hafter⟩ := next_placed code hmatch h hmem
  cases hnext.symm.trans hnext'
  exact ⟨following', h.step?_eq hstep hother, hafter⟩

/-- Where the first machine stops, the second one stops for the same reason. -/
theorem stops_placed (hmatch : Matching window shift size size')
    (h : Alongside (Placed window shift size size' head) machine other)
    (hstop : Stops code limit machine outcome final) :
    ∃ final', Stops code limit other outcome final' ∧
      Alongside (Placed window shift size size' head) final final' := by
  refine h.stops hstop ?_
  intro fault _ hnext
  -- a failing instruction is no move, so it cannot lead out of the window
  have hstays : head + displacement code machine = head := by
    rw [displacement_of_next_error hnext, Int.add_zero]
  have hmem : window (head + displacement code machine) := by
    rw [hstays]
    cases h with
    | mk _ _ hplaced => exact hplaced.mem
  obtain ⟨_, _, final', hnext', hother, hafter⟩ := next_placed code hmatch h hmem
  rw [hstays] at hafter
  cases hnext.symm.trans hnext'
  exact ⟨final', hother, hafter⟩

/-! ## Heads that are not reduced -/

/-- How far this many instructions move a head that is not reduced, as long as none fails. -/
def travelled (code : Code) : Nat → Machine σ → Int
  | 0, _ => 0
  | count + 1, machine =>
      match step? code machine with
      | some following => displacement code machine + travelled code count following
      | none => 0

/-- The way from the first step on is the first displacement and what follows on it. -/
theorem travelled_succ (hstep : step? code machine = some following) (count : Nat) :
    travelled code (count + 1) machine =
      displacement code machine + travelled code count following := by
  simp [travelled, hstep]

/-- Everything that the limit affords keeps in the window a head that starts at this position and is
not reduced. -/
def StaysIn (code : Code) (limit : Option Int) (window : Int → Prop) (head : Int)
    (machine : Machine σ) : Prop :=
  ∀ count final, run code count machine = some final → Affords limit machine count →
    window (head + travelled code count machine)

/-- The first step keeps the head in the window. -/
theorem StaysIn.first (h : StaysIn code limit window head machine)
    (hstep : step? code machine = some following)
    (hlimit : ∀ bound, limit = some bound → machine.steps < bound) :
    window (head + displacement code machine) := by
  have hmem := h 1 following (run_succ hstep 0)
    ((affords_succ hstep hlimit).mpr fun _ _ ↦ Nat.zero_le _)
  rw [travelled_succ hstep] at hmem
  simpa [travelled] using hmem

/-- What comes after the first step keeps the head in the window. -/
theorem StaysIn.later (h : StaysIn code limit window head machine)
    (hstep : step? code machine = some following)
    (hlimit : ∀ bound, limit = some bound → machine.steps < bound) :
    StaysIn code limit window (head + displacement code machine) following := by
  intro count final hrun hafford
  have hmem := h (count + 1) final (by rw [run_succ hstep, hrun])
    ((affords_succ hstep hlimit).mpr hafford)
  rw [travelled_succ hstep] at hmem
  rw [Int.add_assoc]
  exact hmem

/-- As long as the head keeps in the window, the second machine goes along with the first. -/
theorem run_placed {count : Nat} (hmatch : Matching window shift size size')
    (h : Alongside (Placed window shift size size' head) machine other)
    (hstays : StaysIn code limit window head machine) (hafford : Affords limit machine count)
    (hrun : run code count machine = some final) :
    ∃ final', run code count other = some final' ∧
      Alongside (Placed window shift size size' (head + travelled code count machine))
        final final' := by
  induction count generalizing machine other head with
  | zero =>
      cases hrun
      refine ⟨other, rfl, ?_⟩
      show Alongside (Placed window shift size size' (head + 0)) _ other
      rw [Int.add_zero]
      exact h
  | succ count ih =>
      obtain ⟨following, hstep, hrun⟩ := exists_step_of_run hrun
      have hlimit := hafford.steps_lt
      obtain ⟨following', hstep', hafter⟩ := step_placed hmatch h hstep (hstays.first hstep hlimit)
      obtain ⟨final', hrun', hfinal⟩ := ih hafter (hstays.later hstep hlimit)
        ((affords_succ hstep hlimit).mp hafford) hrun
      refine ⟨final', ?_, ?_⟩
      · rw [run_succ hstep', hrun']
      · rw [travelled_succ hstep, ← Int.add_assoc]
        exact hfinal

/-- Executions under one limit have the same outcome in both places, if everything that the limit
affords keeps the head in the window. -/
theorem execute_placed (hmatch : Matching window shift size size')
    (h : Alongside (Placed window shift size size' head) machine other)
    (hstays : StaysIn code limit window head machine) (fuel : Nat) :
    ∃ head' outcome final final', machine.execute code limit fuel = (outcome, final) ∧
      other.execute code limit fuel = (outcome, final') ∧
      Alongside (Placed window shift size size' head') final final' := by
  induction fuel generalizing machine other head with
  | zero => exact ⟨head, _, _, _, rfl, rfl, h⟩
  | succ fuel ih =>
      obtain ⟨outcome, final, hstop⟩ | ⟨following, hstep, hlimit⟩ :=
        stops_or_steps code limit machine
      · obtain ⟨final', hstop', hfinal⟩ := stops_placed hmatch h hstop
        exact ⟨head, outcome, final, final', hstop.execute_eq fuel, hstop'.execute_eq fuel, hfinal⟩
      · obtain ⟨following', hstep', hafter⟩ :=
          step_placed hmatch h hstep (hstays.first hstep hlimit)
        have hlimit' : ∀ bound, limit = some bound → other.steps < bound := by
          cases h
          exact hlimit
        obtain ⟨head', outcome, final, final', hexecute, hexecute', hfinal⟩ :=
          ih hafter (hstays.later hstep hlimit)
        refine ⟨head', outcome, final, final', ?_, ?_, hfinal⟩
        · rw [execute_succ_of_step? hstep hlimit, hexecute]
        · rw [execute_succ_of_step? hstep' hlimit', hexecute']

end Machine

end TapeMachine
