import TapeMachine.Proofs.Machine.Placement
import TapeMachine.Proofs.Machine.Safety

/-!
# Rotated tapes

A tape has no first cell that a program could tell from the others: `Tape.rotate` turns all cells on
by some number of places, and a machine whose head is turned with its tape goes on as before.

The main theorem, `rotate_lockstep`, is about any code and any device, and about every machine with
its head on the tape. It is the case of `Store.Placed` in which the window holds all positions and
both tapes have the same size.
-/

namespace TapeMachine

namespace Tape

/-- The tape turned on by `shift` cells: what was at a position is `shift` further on. -/
def rotate (shift : Int) (tape : Tape) : Tape :=
  ⟨Array.ofFn fun cell : Fin tape.size ↦ tape.valueAt (cell - shift), by
    simpa using tape.nonempty⟩

variable (shift : Int) (tape : Tape)

/-- A rotated tape has as many cells as before. -/
@[simp] theorem size_rotate : (tape.rotate shift).size = tape.size :=
  Array.size_ofFn

/-- A cell of a rotated tape holds what was `shift` cells before it. -/
theorem get_rotate (cell : Fin (tape.rotate shift).size) :
    (tape.rotate shift).get cell = tape.valueAt (cell - shift) :=
  Array.getElem_ofFn cell.isLt

/-- What was at a position is found `shift` further on. -/
@[simp] theorem valueAt_rotate (position : Int) :
    (tape.rotate shift).valueAt (position + shift) = tape.valueAt position := by
  have hcell : (((tape.rotate shift).cellAt (position + shift)).val : Int) =
      (position + shift) % tape.size := by
    show (((position + shift) % (tape.rotate shift).size).toNat : Int) = _
    rw [size_rotate]
    exact Int.toNat_of_nonneg (tape.emod_size_bounds _).1
  show (tape.rotate shift).get _ = _
  rw [get_rotate, hcell]
  refine valueAt_congr ?_
  rw [Int.emod_sub_emod, Int.add_sub_cancel]

end Tape

/-- The store with its tape turned on by `shift` cells, and the head with the tape. -/
def Store.rotate {σ : Type} (shift : Int) (store : Store σ) : Store σ :=
  ⟨store.tape.rotate shift, (store.pointer + shift) % store.tape.size, store.device⟩

/-- The machine with its store turned on by `shift` cells. -/
def Machine.rotate {σ : Type} (shift : Int) (machine : Machine σ) : Machine σ :=
  ⟨machine.store.rotate shift, machine.index, machine.steps⟩

variable {σ ε : Type} {shift head : Int} {size : Nat}

/-- On tapes of one size, positions that share a cell still do so `shift` further on. -/
theorem matching_rotate (shift : Int) (size : Nat) : Matching (fun _ ↦ True) shift size size := by
  intro position other _ _
  exact (Int.emod_add_cancel_right shift).symm

namespace Store

variable {store other : Store σ}

/-- A rotated store is the same store in another place. -/
theorem InBounds.placed_rotate (h : store.InBounds size) (shift : Int) :
    Placed (fun _ ↦ True) shift size size store.pointer store (store.rotate shift) := by
  constructor
  case tape_size => exact h.tape_size
  case tape_size' => rw [rotate, Tape.size_rotate, h.tape_size]
  case mem => trivial
  case pointer_eq => exact (Int.emod_eq_of_lt h.pointer_nonneg h.pointer_lt).symm
  case pointer_eq' =>
    show (store.pointer + shift) % store.tape.size = _
    rw [h.tape_size]
  case valueAt_eq =>
    intro position _
    exact store.tape.valueAt_rotate shift position
  case device_eq => rfl

/-- In another place on a tape of the same size stands the rotated store. -/
theorem Placed.eq_rotate (h : Placed (fun _ ↦ True) shift size size head store other) :
    other = store.rotate shift := by
  have htape : other.tape = store.tape.rotate shift := by
    refine Tape.ext_valueAt ?_ ?_
    · rw [Tape.size_rotate, h.tape_size, h.tape_size']
    · intro position
      have hvalue := h.valueAt_eq (position - shift) trivial
      have hrotated := store.tape.valueAt_rotate shift (position - shift)
      rw [Int.sub_add_cancel] at hvalue hrotated
      rw [hvalue, hrotated]
  have hpointer : other.pointer = (store.pointer + shift) % store.tape.size := by
    rw [h.pointer_eq', h.pointer_eq, h.tape_size, Int.emod_add_emod]
  obtain ⟨tape, pointer, device⟩ := other
  cases htape
  cases hpointer
  cases h.device_eq
  rfl

end Store

namespace Machine

open Store

variable [Device σ ε] {code : Code} {limit : Option Int} {machine other final : Machine σ}
  {outcome : Outcome ε}

/-- A rotated machine stands alongside. -/
theorem alongside_rotate (h : machine.store.InBounds size) (shift : Int) :
    Alongside (Placed (fun _ ↦ True) shift size size machine.store.pointer) machine
      (machine.rotate shift) :=
  .mk _ _ (h.placed_rotate shift)

/-- What stands alongside on a tape of the same size is the rotated machine. -/
theorem eq_rotate_of_alongside
    (h : Alongside (Placed (fun _ ↦ True) shift size size head) machine other) :
    other = machine.rotate shift := by
  obtain ⟨index, steps, hplaced⟩ := h
  rw [hplaced.eq_rotate]
  rfl

/-- A rotated machine takes the step of the other one. -/
theorem step?_rotate (h : machine.store.InBounds size) (code : Code) (shift : Int) :
    step? code (machine.rotate shift) = (step? code machine).map (rotate shift) := by
  obtain ⟨result, following, following', hnext, hnext', hafter⟩ :=
    next_placed code (matching_rotate shift size) (alongside_rotate h shift) trivial
  cases eq_rotate_of_alongside hafter
  have hindex : (machine.rotate shift).index = machine.index := rfl
  simp only [step?, hindex, hnext, hnext']
  cases result <;> split <;> rfl

/-- A rotated machine follows the run of the other one. -/
theorem run_rotate (h : machine.store.InBounds size) (code : Code) (shift : Int) (count : Nat) :
    run code count (machine.rotate shift) = (run code count machine).map (rotate shift) := by
  induction count generalizing machine with
  | zero => rfl
  | succ count ih =>
      simp only [run, step?_rotate h]
      cases hstep : step? code machine with
      | none => rfl
      | some following => exact ih (inBounds_of_step? h hstep)

/-- A rotated machine is executed as the other one, with any limit and any fuel. -/
theorem execute_rotate (h : machine.store.InBounds size) (code : Code) (limit : Option Int)
    (shift : Int) (fuel : Nat) :
    (machine.rotate shift).execute code limit fuel =
      Prod.map id (rotate shift) (machine.execute code limit fuel) := by
  have hstays : StaysIn code limit (fun _ ↦ True) machine.store.pointer machine :=
    fun _ _ _ _ ↦ trivial
  obtain ⟨_, outcome, final, final', hexecute, hexecute', hafter⟩ :=
    execute_placed (matching_rotate shift size) (alongside_rotate h shift) hstays fuel
  cases eq_rotate_of_alongside hafter
  rw [hexecute, hexecute']
  rfl

/-- A program cannot tell where on the tape it is.

This holds of any code, foreign words and arbitrary deltas and targets included, with any device,
and from any machine with its head on the tape. If the tape is turned on by some number of cells and
the head with it, the machine goes on in lockstep: after every number of instructions the program
counter, the step count and the device with all that it has sent and received are the same, and
tape and head are still turned by as much. Under every limit both machines finish, fail with the
same fault, or reach the limit, together. -/
theorem rotate_lockstep (code : Code) (machine : Machine σ) (hnonneg : 0 ≤ machine.store.pointer)
    (hlt : machine.store.pointer < machine.store.tape.size) (shift : Int) :
    (∀ count, run code count (machine.rotate shift) =
      (run code count machine).map (rotate shift)) ∧
    ∀ (limit : Option Int) (outcome : Outcome ε) (final' : Machine σ),
      Ends code limit (machine.rotate shift) outcome final' ↔
        ∃ final, Ends code limit machine outcome final ∧ final' = final.rotate shift := by
  have hbounds : machine.store.InBounds machine.store.tape.size := ⟨rfl, hnonneg, hlt⟩
  refine ⟨run_rotate hbounds code shift, ?_⟩
  intro limit outcome final'
  constructor
  · intro hend
    obtain ⟨hended, fuel, hexecute⟩ := hend
    rw [execute_rotate hbounds] at hexecute
    cases hexecute
    exact ⟨_, ⟨hended, fuel, rfl⟩, rfl⟩
  · intro hend
    obtain ⟨final, ⟨hended, fuel, hexecute⟩, rfl⟩ := hend
    refine ⟨hended, fuel, ?_⟩
    rw [execute_rotate hbounds, hexecute]
    rfl

/-- A program that goes round the end of the tape does so elsewhere after a rotation. -/
theorem rotate_lockstep_around :
    let code : Code := #[.instruction (.command (.move (-1))), .instruction (.command (.add 5)),
      .instruction (.command .write)]
    let machine := start (Tape.blank 3 (by decide)) (Console.ofInput [])
    ∃ final, Ends code none machine .finished final ∧
      Ends code none (machine.rotate 2) .finished (final.rotate 2) ∧
      final.store.pointer = 2 ∧ (final.rotate 2).store.pointer = 1 ∧
      final.store.tape.cells = #[0, 0, 5] ∧ (final.rotate 2).store.tape.cells = #[0, 5, 0] ∧
      (final.rotate 2).store.device.delivered = #[5] := by
  intro code machine
  have hend : Ends code none machine .finished (machine.execute code none 4).2 :=
    ⟨by simp, 4, rfl⟩
  have hrotated : Ends code none (machine.rotate 2) .finished _ :=
    ((rotate_lockstep code machine (by decide) (by decide) 2).2 none .finished _).mpr
      ⟨_, hend, rfl⟩
  exact ⟨_, hend, hrotated, by decide, by decide, by decide, by decide, by decide⟩

end Machine

end TapeMachine
