import TapeMachine.Proofs.Machine.InMemory
import TapeMachine.Proofs.Machine.Placement

/-!
# Programs that fit on a tape

The span of a run is the interval of the positions that its head comes to when it is not reduced. A
run does not depend on the size of its tape as long as its span fits: no two positions of the span
share a cell then. The span may begin left of the first cell.

The main theorem, `fits_any_size`, says so for every number of instructions that keep the head in an
interval, and for the result of evaluating a source.
-/

namespace TapeMachine

/-- The position lies between `lo` and `hi`. -/
def Between (lo hi position : Int) : Prop :=
  lo ≤ position ∧ position ≤ hi

variable {lo hi : Int} {size size' : Nat}

/-- Where an interval fits on a tape, no two of its positions share a cell. -/
theorem emod_eq_iff_of_between (hfit : hi - lo + 1 ≤ size) {position other : Int}
    (hposition : Between lo hi position) (hother : Between lo hi other) :
    position % size = other % size ↔ position = other := by
  unfold Between at hposition hother
  constructor
  · intro h
    have hdvd : (size : Int) ∣ position - other :=
      Int.dvd_of_emod_eq_zero (Int.emod_eq_emod_iff_emod_sub_eq_zero.mp h)
    have hzero := Int.eq_zero_of_dvd_of_natAbs_lt_natAbs hdvd (by omega)
    omega
  · intro h
    rw [h]

/-- On two tapes that an interval fits on, its positions share cells alike: never. -/
theorem matching_between (hfit : hi - lo + 1 ≤ size) (hfit' : hi - lo + 1 ≤ size') :
    Matching (Between lo hi) 0 size size' := by
  intro position other hposition hother
  rw [Int.add_zero, Int.add_zero, emod_eq_iff_of_between hfit hposition hother,
    emod_eq_iff_of_between hfit' hposition hother]

namespace Machine

open Store

/-- The machines stand at the same instruction after the same number of steps, with the same device,
and their tapes hold the same at all positions of the interval. -/
structure SameBetween {σ : Type} (lo hi : Int) (machine other : Machine σ) : Prop where
  index_eq : other.index = machine.index
  steps_eq : other.steps = machine.steps
  device_eq : other.store.device = machine.store.device
  valueAt_eq : ∀ position, lo ≤ position → position ≤ hi →
    other.store.tape.valueAt position = machine.store.tape.valueAt position

section Devices

variable {σ ε : Type} [Device σ ε] {head : Int} {machine other : Machine σ}

/-- On blank tapes that the interval fits on, a program starts in two places. -/
theorem alongside_start (hlo : Between lo hi 0) (size_pos : 0 < size) (size_pos' : 0 < size')
    (device : σ) :
    Alongside (Placed (Between lo hi) 0 size size' 0) (start (Tape.blank size size_pos) device)
      (start (Tape.blank size' size_pos') device) := by
  refine .mk 0 0 ?_
  constructor
  case tape_size => exact Tape.size_blank size size_pos
  case tape_size' => exact Tape.size_blank size' size_pos'
  case mem => exact hlo
  case pointer_eq => exact (Int.zero_emod _).symm
  case pointer_eq' => exact (Int.zero_emod _).symm
  case valueAt_eq =>
    intro position _
    rw [Tape.valueAt_blank, Tape.valueAt_blank]
  case device_eq => rfl

/-- Machines in two places are the same up to their tapes outside the interval. -/
theorem sameBetween_of_alongside
    (h : Alongside (Placed (Between lo hi) 0 size size' head) machine other) :
    SameBetween lo hi machine other := by
  obtain ⟨index, steps, hplaced⟩ := h
  refine ⟨rfl, rfl, hplaced.device_eq, ?_⟩
  intro position hlo hhi
  have hvalue := hplaced.valueAt_eq position ⟨hlo, hhi⟩
  rwa [Int.add_zero] at hvalue

/-- In two places the heads are the reductions of one position. -/
theorem pointers_of_alongside
    (h : Alongside (Placed (Between lo hi) 0 size size' head) machine other) :
    machine.store.pointer = head % size ∧ other.store.pointer = head % size' := by
  obtain ⟨index, steps, hplaced⟩ := h
  have hpointer' := hplaced.pointer_eq'
  rw [Int.add_zero] at hpointer'
  exact ⟨hplaced.pointer_eq, hpointer'⟩

variable {code : Code} {count : Nat} {limit : Option Int} {final left : Machine σ}
  {outcome : Outcome ε}
variable {size_pos : 0 < size} {device : σ}

/-- The instructions that keep the head in the interval are executed alike on both tapes. -/
theorem run_fits (size_pos' : 0 < size') (hfit : hi - lo + 1 ≤ size)
    (hfit' : hi - lo + 1 ≤ size')
    (hspan : ∀ earlier ≤ count,
      Between lo hi (travelled code earlier (start (Tape.blank size size_pos) device)))
    (hrun : run code count (start (Tape.blank size size_pos) device) = some final) :
    ∃ final', run code count (start (Tape.blank size' size_pos') device) = some final' ∧
      Alongside (Placed (Between lo hi) 0 size size'
        (travelled code count (start (Tape.blank size size_pos) device))) final final' := by
  have hstays : StaysIn code (some count) (Between lo hi) 0
      (start (Tape.blank size size_pos) device) := by
    intro earlier _ _ hafford
    have hle : earlier ≤ ((count : Int) - 0).toNat := hafford count rfl
    rw [Int.zero_add]
    exact hspan earlier (by omega)
  have hafford : Affords (some (count : Int)) (start (Tape.blank size size_pos) device) count := by
    intro bound hsome
    cases hsome
    show count ≤ ((count : Int) - 0).toNat
    omega
  obtain ⟨final', hrun', hfinal⟩ := run_placed (matching_between hfit hfit')
    (alongside_start (hspan 0 (Nat.zero_le _)) size_pos size_pos' device) hstays hafford hrun
  rw [Int.zero_add] at hfinal
  exact ⟨final', hrun', hfinal⟩

/-- An execution that ends after instructions that keep the head in the interval ends alike on both
tapes. -/
theorem ends_fits (size_pos' : 0 < size') (hfit : hi - lo + 1 ≤ size)
    (hfit' : hi - lo + 1 ≤ size')
    (hspan : ∀ earlier ≤ count,
      Between lo hi (travelled code earlier (start (Tape.blank size size_pos) device)))
    (hend : Ends code limit (start (Tape.blank size size_pos) device) outcome left)
    (hsteps : left.steps = count) :
    ∃ left', Ends code limit (start (Tape.blank size' size_pos') device) outcome left' ∧
      SameBetween lo hi left left' := by
  obtain ⟨reached, last, hrun, hafford, hstop⟩ := ends_iff.mp hend
  obtain rfl : reached = count := by
    have hreached : last.steps = 0 + reached := steps_of_run hrun
    have hleft := hstop.steps_eq
    omega
  obtain ⟨last', hrun', hlast⟩ := run_fits size_pos' hfit hfit' hspan hrun
  obtain ⟨left', hstop', hleft⟩ := stops_placed (matching_between hfit hfit') hlast hstop
  exact ⟨left', ends_iff.mpr ⟨reached, last', hrun', hafford, hstop'⟩,
    sameBetween_of_alongside hleft⟩

end Devices

variable {source : Source} {program : Program} {limit : Option Int} {memory : Nat}

/-- A source has the same result on both tapes, if everything that the limit affords keeps the head
in the interval. -/
theorem evaluate_fits (size_pos : 0 < size) (size_pos' : 0 < size') (hfit : hi - lo + 1 ≤ size)
    (hfit' : hi - lo + 1 ≤ size') (hword : fitsWord size) (hroom : size ≤ memory)
    (hword' : fitsWord size') (hroom' : size' ≤ memory)
    (hcompile : compile source = .ok program) {input : List UInt8}
    (hstays : StaysIn program.code limit (Between lo hi) 0
      (start (Tape.blank size size_pos) (Console.ofInput input))) (patience : Nat) :
    (evaluate patience memory source input size' limit).1 =
      (evaluate patience memory source input size limit).1 := by
  have hbetween : Between lo hi 0 := by
    have hmem := hstays 0 _ rfl fun _ _ ↦ Nat.zero_le _
    simpa [travelled] using hmem
  obtain ⟨_, outcome, final, final', hexecute, hexecute', hfinal⟩ :=
    execute_placed (matching_between hfit hfit')
      (alongside_start hbetween size_pos size_pos' (Console.ofInput input)) hstays
      (fuelFor patience limit 0)
  have hwithin : executeWithin patience program.code limit
      (start (Tape.blank size size_pos) (Console.ofInput input)) = (outcome, final) := hexecute
  have hwithin' : executeWithin patience program.code limit
      (start (Tape.blank size' size_pos') (Console.ofInput input)) = (outcome, final') := hexecute'
  have hdevice : final'.store.device = final.store.device :=
    (sameBetween_of_alongside hfinal).device_eq
  rw [evaluate_eq hcompile size_pos hword hroom, evaluate_eq hcompile size_pos' hword' hroom']
  simp only [hwithin, hwithin', hdevice]

/-- A run does not depend on the size of its tape where its span fits on it.

Let a program be started on a blank tape, with any code and any device, and follow its head without
reducing it: it starts at zero, and every move adds its signed offset. If all positions that the
first instructions lead to lie between `lo` and `hi`, the same instructions are executed on every
blank tape of at least `hi - lo + 1` cells: after each of them the program counter, the step count
and the device are the same, and both tapes hold the same at every position between `lo` and `hi`,
each counted round its own tape. If an execution ends there, under any limit, it ends in the same
way on the other tape.

So a source has the same result on all tapes that its span fits on, wherever the span begins. -/
theorem fits_any_size (size_pos : 0 < size) (size_pos' : 0 < size') (hfit : hi - lo + 1 ≤ size)
    (hfit' : hi - lo + 1 ≤ size') :
    (∀ (σ ε : Type) [Device σ ε] (code : Code) (device : σ) (count : Nat) (final : Machine σ),
      let machine := start (Tape.blank size size_pos) device
      let other := start (Tape.blank size' size_pos') device
      run code count machine = some final →
      (∀ earlier ≤ count,
        lo ≤ travelled code earlier machine ∧ travelled code earlier machine ≤ hi) →
      (∀ earlier ≤ count, ∃ middle middle', run code earlier machine = some middle ∧
        run code earlier other = some middle' ∧ SameBetween lo hi middle middle' ∧
        middle.store.pointer = travelled code earlier machine % size ∧
        middle'.store.pointer = travelled code earlier machine % size') ∧
      ∀ (limit : Option Int) (outcome : Outcome ε) (left : Machine σ),
        Ends code limit machine outcome left → left.steps = count →
        ∃ left', Ends code limit other outcome left' ∧ SameBetween lo hi left left') ∧
    ∀ (source : Source) (program : Program) (input : List UInt8) (limit : Option Int)
      (memory : Nat), compile source = .ok program →
      fitsWord size → size ≤ memory → fitsWord size' → size' ≤ memory →
      let machine := start (Tape.blank size size_pos) (Console.ofInput input)
      (∀ count final, run program.code count machine = some final →
        Affords limit machine count → lo ≤ travelled program.code count machine ∧
          travelled program.code count machine ≤ hi) →
      ∀ patience, (evaluate patience memory source input size' limit).1 =
        (evaluate patience memory source input size limit).1 := by
  constructor
  · intro σ ε _ code device count final machine other hrun hspan
    refine ⟨?_, fun limit outcome left hend hsteps ↦
      ends_fits size_pos' hfit hfit' hspan hend hsteps⟩
    intro earlier hle
    obtain ⟨middle, hmiddle⟩ := exists_run_of_le hle hrun
    obtain ⟨middle', hmiddle', hafter⟩ := run_fits size_pos' hfit hfit'
      (fun before hbefore ↦ hspan before (Nat.le_trans hbefore hle)) hmiddle
    exact ⟨middle, middle', hmiddle, hmiddle', sameBetween_of_alongside hafter,
      pointers_of_alongside hafter⟩
  · intro source program input limit memory hcompile hword hroom hword' hroom' machine hspan
    refine evaluate_fits size_pos size_pos' hfit hfit' hword hroom hword' hroom' hcompile ?_
    intro count final hrun hafford
    rw [Int.zero_add]
    exact hspan count final hrun hafford

/-- A program that works left of the first cell does so on two cells as well as on five. -/
theorem fits_any_size_leftwards :
    let code : Code := #[.instruction (.command (.move 18446744073709551615)),
      .instruction (.command (.add 1)), .instruction (.command .write)]
    let machine := start (Tape.blank 2 (by decide)) (Console.ofInput [])
    let other := start (Tape.blank 5 (by decide)) (Console.ofInput [])
    ∃ left left', Ends code none machine .finished left ∧ Ends code none other .finished left' ∧
      SameBetween (-1) 0 left left' ∧ left.store.pointer = 1 ∧ left'.store.pointer = 4 ∧
      (evaluate 4 5 [0x3C, 0x2B, 0x2E] [] 5 none).1 =
        (evaluate 4 5 [0x3C, 0x2B, 0x2E] [] 2 none).1 := by
  intro code machine other
  let program : Program :=
    #[.command (.move 18446744073709551615), .command (.add 1), .command .write]
  have hcode : program.code = code := by simp [program, code, Program.code]
  have hspan : ∀ count ≤ 3,
      -1 ≤ travelled code count machine ∧ travelled code count machine ≤ 0 := by
    decide
  have hend : Ends code none machine .finished (machine.execute code none 4).2 := ⟨by simp, 4, rfl⟩
  have hother : Ends code none other .finished (other.execute code none 4).2 := ⟨by simp, 4, rfl⟩
  have hrun : run code 3 machine = some (machine.execute code none 4).2 := rfl
  have hlast : step? code (machine.execute code none 4).2 = none := rfl
  obtain ⟨hruns, hevaluates⟩ :=
    @fits_any_size (-1) 0 2 5 (by decide) (by decide) (by decide) (by decide)
  obtain ⟨-, hends⟩ := hruns _ _ code (Console.ofInput []) 3 _ hrun hspan
  obtain ⟨left', hend', hsame⟩ := hends none .finished _ hend rfl
  obtain rfl := (hend'.unique hother).2
  refine ⟨_, _, hend, hother, hsame, by decide, by decide, ?_⟩
  refine hevaluates [0x3C, 0x2B, 0x2E] program [] none 5 rfl (by decide) (by decide) (by decide)
    (by decide) ?_ 4
  rw [hcode]
  intro count final hreached _
  exact hspan count (run_le_of_step?_eq_none hreached hrun hlast)

end Machine

end TapeMachine
