import TapeMachine.Console
import TapeMachine.Proofs.Source.Bytewise

/-!
# Walking over a source

A second way to run a source, without compiling it: a walker goes from byte to byte, does what
each operator says as it meets it, and looks for the partner of a bracket by counting brackets.

`execute_bytewise` compares the walker with the machine on a program that has one instruction for
each byte, comments included. The two go in lockstep.
-/

namespace TapeMachine

/-- A walker: the cells of its tape and the one under its head, the input that it has not read,
the output that it has written, and its position in the source. -/
structure Walk (size : Nat) where
  cells : Vector UInt8 size
  head : Fin size
  unread : List UInt8
  written : Array UInt8
  position : Nat

/-- How a walk ends: past the last byte of the source, at a read without input, or not within the
fuel given. -/
inductive Walk.Outcome where
  | finished
  | exhausted
  | unfinished
deriving DecidableEq, Inhabited

namespace Walk

variable {size : Nat}

/-- The walker at the start of a source, on a blank tape. -/
def start (size : Nat) (size_pos : 0 < size) (input : List UInt8) : Walk size :=
  ⟨Vector.replicate size 0, ⟨0, size_pos⟩, input, #[], 0⟩

/-- The value under the head. -/
def value (walker : Walk size) : UInt8 :=
  walker.cells[walker.head]

/-- Overwrite the cell under the head. -/
def put (walker : Walk size) (value : UInt8) : Walk size :=
  { walker with cells := walker.cells.set walker.head value }

/-- Move the head so many cells to the right. Behind the last cell comes the first one. -/
def turn (walker : Walk size) (count : Nat) : Walk size :=
  { walker with head := ⟨(walker.head + count) % size, Nat.mod_lt _ walker.head.pos⟩ }

/-- Go to a position of the source. -/
def goTo (walker : Walk size) (position : Nat) : Walk size :=
  { walker with position := position }

/-- Do what the byte at the position of the walker says, unless it says to read and no input is
left. A comment says nothing. One cell to the left is all cells but one to the right. -/
def obey (source : Source) (b : UInt8) (walker : Walk size) : Option (Walk size) :=
  let behind := walker.position + 1
  match Operator.ofByte? b with
  | none => some (walker.goTo behind)
  | some .increment => some ((walker.put (walker.value + 1)).goTo behind)
  | some .decrement => some ((walker.put (walker.value - 1)).goTo behind)
  | some .right => some ((walker.turn 1).goTo behind)
  | some .left => some ((walker.turn (size - 1)).goTo behind)
  | some .output =>
      some ({ walker with written := walker.written.push walker.value }.goTo behind)
  | some .input =>
      match walker.unread with
      | [] => none
      | byte :: rest => some (({ walker with unread := rest }.put byte).goTo behind)
  | some .opening =>
      some (walker.goTo
        (if walker.value = 0 then source.closingAfter walker.position + 1 else behind))
  | some .closing =>
      some (walker.goTo
        (if walker.value = 0 then behind else source.openingBefore walker.position + 1))

/-- Walk until the end of the source or a read without input, but over no more bytes than the
fuel. -/
def walk (source : Source) : Nat → Walk size → Outcome × Walk size
  | 0, walker => (.unfinished, walker)
  | fuel + 1, walker =>
      match source[walker.position]? with
      | none => (.finished, walker)
      | some b =>
          match walker.obey source b with
          | none => (.exhausted, walker)
          | some following => walk source fuel following

/-- A walk comes to an end, with this outcome and this walker. -/
def Ends (source : Source) (walker : Walk size) (outcome : Outcome) (final : Walk size) : Prop :=
  outcome ≠ .unfinished ∧ ∃ fuel, walk source fuel walker = (outcome, final)

/-- A walk goes on forever exactly when it does not come to an end. -/
theorem forall_unfinished_iff {source : Source} {walker : Walk size} :
    (∀ fuel, (walk source fuel walker).1 = .unfinished) ↔
      ¬ ∃ outcome final, Ends source walker outcome final := by
  constructor
  · rintro hforever ⟨outcome, final, hended, fuel, hwalk⟩
    have hunfinished := hforever fuel
    rw [hwalk] at hunfinished
    exact hended hunfinished
  · intro hnever fuel
    by_cases hunfinished : (walk source fuel walker).1 = .unfinished
    · exact hunfinished
    · exact absurd ⟨_, _, hunfinished, fuel, rfl⟩ hnever

/-! ## The machine of a walker -/

/-- A walker has a cell to stand on. -/
theorem cells_nonempty (walker : Walk size) : 0 < walker.cells.toArray.size := by
  rw [Vector.size_toArray]
  exact walker.head.pos

/-- The tape, head and console of a walker. -/
def store (walker : Walk size) : Store Console :=
  ⟨⟨walker.cells.toArray, walker.cells_nonempty⟩, walker.head,
    ⟨.buffer walker.unread, .buffer, walker.written, #[]⟩⟩

/-- The outcome of a machine where a walk has this outcome. -/
def Outcome.toMachine : Outcome → TapeMachine.Outcome ConsoleFault
  | finished => .finished
  | exhausted => .faulted (.device .endOfInput)
  | unfinished => .unfinished

/-- Where a walker goes on has no influence on its tape, head and console. -/
@[simp] theorem store_goTo (walker : Walk size) (position : Nat) :
    (walker.goTo position).store = walker.store :=
  rfl

/-- The walker is then at that position. -/
@[simp] theorem position_goTo (walker : Walk size) (position : Nat) :
    (walker.goTo position).position = position :=
  rfl

/-- The tape of a walker has the size of the walk, and its head stands on it. -/
theorem inBounds_store (walker : Walk size) : walker.store.InBounds size :=
  ⟨by simp [store, Tape.size], Int.natCast_nonneg _, Int.ofNat_lt.mpr walker.head.isLt⟩

/-- The cell that a walker stands on is addressed by its head. -/
theorem resolveIndex_store (walker : Walk size) :
    resolveIndex walker.store.tape.size walker.store.pointer =
      .ok ⟨walker.head, by simp [store, Tape.size]⟩ :=
  resolveIndex_of_lt (Int.natCast_nonneg _) (by simp [store, Tape.size])

/-- The walker and its store have the same value under the head. -/
theorem current_store (walker : Walk size) :
    (walker.store.current : Except (Fault ConsoleFault) UInt8) = .ok walker.value := by
  rw [Store.current, resolveIndex_store]
  rfl

/-- A walker changes its cell as its store does. -/
theorem perform_add (walker : Walk size) (delta : Int) :
    walker.store.perform (.add delta) =
      (.ok (), (walker.put (walker.value + UInt8.ofInt delta)).store) := by
  have hcell := walker.resolveIndex_store
  simp only [store] at hcell
  simp [store, Store.perform, hcell, Tape.get, Tape.set, put, value]

/-- A walker moves its head as its store does. -/
theorem perform_move (walker : Walk size) {delta : Int} {count : Nat}
    (hcount : signedOffset delta % size = (count : Int) % size) :
    walker.store.perform (.move delta) = (.ok (), (walker.turn count).store) := by
  have hhead : ((walker.head : Int) + signedOffset delta) % size =
      (walker.head + count : Nat) % size := by
    rw [Int.natCast_add, ← Int.add_emod_emod, hcount, Int.add_emod_emod]
  simp [store, Store.perform, Tape.size, turn, hhead]

/-- A walker writes as its store does. -/
theorem perform_write (walker : Walk size) :
    walker.store.perform .write =
      (.ok (), { walker with written := walker.written.push walker.value }.store) := by
  have hcell := walker.resolveIndex_store
  simp only [store] at hcell
  simp [store, Store.perform, hcell, Device.write, Console.writeByte, Tape.get, value]

/-- A walker reads as its store does. -/
theorem perform_read (walker : Walk size) {byte : UInt8} {rest : List UInt8}
    (hunread : walker.unread = byte :: rest) :
    walker.store.perform .read = (.ok (), ({ walker with unread := rest }.put byte).store) := by
  have hcell := walker.resolveIndex_store
  simp only [store] at hcell
  simp [store, Store.perform, hcell, Device.read, Console.read, hunread, Tape.set, put]

/-- Where no input is left, the store of a walker refuses to read. -/
theorem perform_read_nil (walker : Walk size) (hunread : walker.unread = []) :
    walker.store.perform .read = (.error (.device .endOfInput), walker.store) := by
  simp [store, Store.perform, Device.read, Console.read, hunread]

/-- All cells but one to the right are one cell to the left. -/
theorem signedOffset_left (walker : Walk size) :
    signedOffset (pointerModulus - 1) % size = ((size - 1 : Nat) : Int) % size := by
  have hpos := walker.head.pos
  have hleft : ((size - 1 : Nat) : Int) = signedOffset (pointerModulus - 1) + size := by
    rw [show signedOffset (pointerModulus - 1) = -1 from rfl]
    omega
  rw [hleft, Int.add_emod_right]

/-- Moving the head by no cell changes nothing. -/
theorem turn_zero (walker : Walk size) : walker.turn 0 = walker := by
  simp [turn, Nat.mod_eq_of_lt walker.head.isLt]

/-- What the store of a walker does at the instruction of a byte is what the walker does at the
byte. -/
theorem obey_store (source : Source) (b : UInt8) (walker : Walk size) :
    walker.store.obey walker.position (source.instruction walker.position b) =
      match walker.obey source b with
      | none => (.error (.device .endOfInput), walker.store)
      | some following => (.ok (following.position - 1 : Int), following.store) := by
  have hcurrent := walker.current_store
  cases hop : Operator.ofByte? b with
  | none =>
      have hperform : walker.store.perform (.move 0) = (.ok (), (walker.turn 0).store) :=
        walker.perform_move rfl
      rw [turn_zero] at hperform
      simp [Source.instruction, obey, hop, Store.obey_of_perform_ok hperform]
  | some op =>
      cases op with
      | increment =>
          have hperform := walker.perform_add 1
          simp [Source.instruction, obey, hop, Operator.command?,
            Store.obey_of_perform_ok hperform]
      | decrement =>
          have hperform := walker.perform_add (cellModulus - 1)
          rw [show UInt8.ofInt (cellModulus - 1) = -1 from rfl, ← UInt8.sub_eq_add_neg]
            at hperform
          simp [Source.instruction, obey, hop, Operator.command?,
            Store.obey_of_perform_ok hperform]
      | right =>
          have hperform : walker.store.perform (.move 1) = (.ok (), (walker.turn 1).store) :=
            walker.perform_move rfl
          simp [Source.instruction, obey, hop, Operator.command?,
            Store.obey_of_perform_ok hperform]
      | left =>
          have hperform := walker.perform_move walker.signedOffset_left
          simp [Source.instruction, obey, hop, Operator.command?,
            Store.obey_of_perform_ok hperform]
      | output =>
          simp [Source.instruction, obey, hop, Operator.command?,
            Store.obey_of_perform_ok walker.perform_write]
      | input =>
          cases hunread : walker.unread with
          | nil =>
              have hperform := walker.perform_read_nil hunread
              simp [Source.instruction, obey, hop, Operator.command?, hunread,
                Store.obey_of_perform_error hperform]
          | cons byte rest =>
              have hperform := walker.perform_read hunread
              simp [Source.instruction, obey, hop, Operator.command?, hunread,
                Store.obey_of_perform_ok hperform]
      | opening =>
          simp only [Source.instruction, obey, hop, Store.obey, hcurrent, position_goTo,
            store_goTo]
          split <;> simp
      | closing =>
          simp only [Source.instruction, obey, hop, Store.obey, hcurrent, position_goTo,
            store_goTo]
          split <;> simp

/-- The walker and the machine on the bytewise program go in lockstep, from any point of the walk
on. -/
theorem execute_bytewise (source : Source) (fuel : Nat) (walker : Walk size) (steps : Int) :
    ∃ final, Machine.execute source.bytewise.code none fuel
        ⟨walker.store, walker.position, steps⟩ = ((walk source fuel walker).1.toMachine, final) ∧
      final.store = (walk source fuel walker).2.store := by
  -- a byte is one instruction, so both sides use up their fuel together
  induction fuel generalizing walker steps with
  | zero => exact ⟨_, rfl, rfl⟩
  | succ fuel ih =>
      have hlimit : ∀ bound, (none : Option Int) = some bound → steps < bound := nofun
      have hword := source.getElem?_bytewise walker.position
      cases hb : source[walker.position]? with
      | none =>
          rw [hb, Option.map_none] at hword
          have hfinished : Machine.Finished source.bytewise.code
              ⟨walker.store, walker.position, steps⟩ :=
            Int.ofNat_le.mpr (Array.getElem?_eq_none_iff.mp hword)
          rw [walk, hb, (Machine.Stops.finished hfinished).execute_eq fuel]
          exact ⟨_, rfl, rfl⟩
      | some b =>
          rw [hb, Option.map_some] at hword
          have hobey := obey_store source b walker
          cases hfollowing : walker.obey source b with
          | none =>
              rw [hfollowing] at hobey
              have hfails : Machine.Fails source.bytewise.code
                  ⟨walker.store, walker.position, steps⟩ _ _ := Machine.fails_of_obey hword hobey
              rw [(Machine.Stops.faulted hfails hlimit).execute_eq fuel]
              simp only [walk, hb, hfollowing]
              exact ⟨_, rfl, rfl⟩
          | some following =>
              rw [hfollowing] at hobey
              have hstep : Machine.step? source.bytewise.code
                  ⟨walker.store, walker.position, steps⟩ = _ := Machine.step?_of_obey hword hobey
              rw [Int.sub_add_cancel] at hstep
              rw [Machine.execute_succ_of_step? hstep hlimit]
              simp only [walk, hb, hfollowing]
              exact ih following (steps + 1)

end Walk

end TapeMachine
