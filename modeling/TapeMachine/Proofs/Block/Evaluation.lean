import TapeMachine.Proofs.Block.Layout
import TapeMachine.Proofs.Machine.Runs
import TapeMachine.Proofs.Store

/-!
# Evaluating a block

`Block.Evaluates` gives a block its meaning without program counter and jumps, together with what
it costs. A block that never comes to an end has no evaluation.

The second half is about machines whose code holds the layout of a block somewhere: which steps
they make at the instructions of the block.
-/

namespace TapeMachine

variable {σ ε : Type} [Device σ ε]

/-- A block, started on a store, comes to an end and leaves a store. The cost is the number of
commands performed and of tests passed: a loop tests the current cell on entry and after each
evaluation of its body. -/
inductive Block.Evaluates : Block → Store σ → Nat → Except (Fault ε) Unit → Store σ → Prop where
  | nil {store : Store σ} : Evaluates nil store 0 (.ok ()) store
  | command {c : Command} {rest : Block} {store middle left : Store σ} {cost : Nat}
      {result : Except (Fault ε) Unit} (hperform : store.perform c = (.ok (), middle))
      (hrest : Evaluates rest middle cost result left) :
      Evaluates (command c rest) store (cost + 1) result left
  | commandFault {c : Command} {rest : Block} {store left : Store σ} {fault : Fault ε}
      (hperform : store.perform c = (.error fault, left)) :
      Evaluates (command c rest) store 0 (.error fault) left
  | skip {body rest : Block} {store left : Store σ} {cost : Nat}
      {result : Except (Fault ε) Unit}
      (hcurrent : (store.current : Except (Fault ε) UInt8) = .ok 0)
      (hrest : Evaluates rest store cost result left) :
      Evaluates (loop body rest) store (cost + 1) result left
  | again {body rest : Block} {store middle left : Store σ} {value : UInt8} {first second : Nat}
      {result : Except (Fault ε) Unit}
      (hcurrent : (store.current : Except (Fault ε) UInt8) = .ok value) (hvalue : value ≠ 0)
      (hbody : Evaluates body store first (.ok ()) middle)
      (hloop : Evaluates (loop body rest) middle second result left) :
      Evaluates (loop body rest) store (first + second + 1) result left
  | bodyFault {body rest : Block} {store left : Store σ} {value : UInt8} {cost : Nat}
      {fault : Fault ε} (hcurrent : (store.current : Except (Fault ε) UInt8) = .ok value)
      (hvalue : value ≠ 0) (hbody : Evaluates body store cost (.error fault) left) :
      Evaluates (loop body rest) store (cost + 1) (.error fault) left
  | testFault {body rest : Block} {store : Store σ} {fault : Fault ε}
      (hcurrent : store.current = .error fault) :
      Evaluates (loop body rest) store 0 (.error fault) store

/-! ## Code that holds a block -/

/-- From `base` on, the code holds these instructions. -/
def Code.Holds (code : Code) (base : Nat) (part : List Instruction) : Prop :=
  ∀ i instruction, part[i]? = some instruction → code[base + i]? = some (.instruction instruction)

namespace Code.Holds

variable {code : Code} {base : Nat} {instruction : Instruction} {first second : List Instruction}

/-- The first of the instructions. -/
theorem head (h : code.Holds base (instruction :: first)) :
    code[base]? = some (.instruction instruction) :=
  h 0 instruction rfl

/-- All instructions but the first. -/
theorem tail (h : code.Holds base (instruction :: first)) : code.Holds (base + 1) first := by
  intro i other hother
  rw [Nat.add_assoc, Nat.add_comm 1]
  exact h (i + 1) other hother

/-- The instructions in front. -/
theorem left (h : code.Holds base (first ++ second)) : code.Holds base first := by
  intro i other hother
  obtain ⟨hlt, _⟩ := List.getElem?_eq_some_iff.mp hother
  exact h i other (by rw [List.getElem?_append_left hlt, hother])

/-- The instructions behind. -/
theorem right (h : code.Holds base (first ++ second)) :
    code.Holds (base + first.length) second := by
  intro i other hother
  rw [Nat.add_assoc]
  refine h (first.length + i) other ?_
  rw [List.getElem?_append_right (Nat.le_add_right _ _), Nat.add_sub_cancel_left, hother]

end Code.Holds

/-- The code of a program holds its instructions. -/
theorem Program.holds_code (program : Program) : program.code.Holds 0 program.toList := by
  intro i instruction h
  simpa [code] using h

namespace Block

variable {code : Code} {base : Nat} {body rest : Block}

/-- The code of an assembled block holds its layout. -/
theorem holds_assemble (block : Block) : block.assemble.code.Holds 0 (block.layout 0) := by
  rw [← toList_assemble]
  exact block.assemble.holds_code

/-- What holds the layout of a loop holds the layout of its body. -/
theorem holds_body (h : code.Holds base ((loop body rest).layout base)) :
    code.Holds (base + 1) (body.layout (base + 1)) :=
  h.tail.left

/-- What holds the layout of a loop holds its end. -/
theorem getElem?_loopEnd (h : code.Holds base ((loop body rest).layout base)) :
    code[base + body.size + 1]? = some (.instruction (.loopEnd base)) := by
  have hend := h.tail.right.head
  rwa [length_layout, Nat.add_right_comm] at hend

/-- What holds the layout of a loop holds the layout of what follows the loop. -/
theorem holds_rest (h : code.Holds base ((loop body rest).layout base)) :
    code.Holds (base + body.size + 2) (rest.layout (base + body.size + 2)) := by
  have hrest := h.tail.right.tail
  rwa [length_layout, Nat.add_right_comm base 1] at hrest

/-- The indices at which a block is entered: its first one, and for a loop also its end, where
the cell is tested in the same way. -/
def Entry (block : Block) (base index : Nat) : Prop :=
  index = base ∨ ∃ body rest, block = loop body rest ∧ index = base + body.size + 1

/-- A block that is no loop is entered at its first index only. -/
theorem Entry.eq_base {block : Block} {index : Nat} (h : block.Entry base index)
    (hloop : ∀ body rest, block ≠ loop body rest) : index = base := by
  obtain rfl | ⟨body, rest, rfl, _⟩ := h
  · rfl
  · exact absurd rfl (hloop body rest)

end Block

namespace Machine

variable {code : Code} {index : Nat} {steps : Int} {store left : Store σ} {fault : Fault ε}
  {instruction : Instruction}

/-- A word of the code that is an instruction is fetched by its index. -/
theorem fetch_of_getElem? (h : code[index]? = some (.instruction instruction)) :
    (index : Int) < code.size ∧ code.fetch index = .ok instruction := by
  obtain ⟨hlt, hword⟩ := Array.getElem?_eq_some_iff.mp h
  have hindex : (index : Int) < code.size := by omega
  refine ⟨hindex, ?_⟩
  rw [Code.fetch, resolveIndex_of_lt (Int.natCast_nonneg index) hindex]
  simp [hword]

/-- An instruction that the store obeys is a step of the machine. -/
theorem step?_of_obey {target : Int} (hword : code[index]? = some (.instruction instruction))
    (hobey : store.obey index instruction = (.ok target, left)) :
    step? code ⟨store, index, steps⟩ = some ⟨left, target + 1, steps + 1⟩ := by
  obtain ⟨hindex, hfetch⟩ := fetch_of_getElem? hword
  exact step?_eq_some_iff.mpr ⟨hindex, next_of_obey_ok hfetch hobey⟩

/-- At an instruction that the store refuses the machine fails. -/
theorem fails_of_obey (hword : code[index]? = some (.instruction instruction))
    (hobey : store.obey index instruction = (.error fault, left)) :
    Fails code ⟨store, index, steps⟩ fault ⟨left, index, steps⟩ := by
  obtain ⟨hindex, hfetch⟩ := fetch_of_getElem? hword
  exact ⟨hindex, next_of_obey_error hfetch hobey⟩

/-- At a command the machine performs it and goes on behind it. -/
theorem step?_command {base : Nat} {c : Command} {rest : Block}
    (hcode : code.Holds base ((Block.command c rest).layout base))
    (hperform : store.perform c = (.ok (), left)) :
    step? code ⟨store, base, steps⟩ = some ⟨left, ↑(base + 1), steps + 1⟩ := by
  exact step?_of_obey hcode.head (Store.obey_of_perform_ok hperform base)

/-- At a command that the store refuses the machine fails. -/
theorem fails_command {base : Nat} {c : Command} {rest : Block}
    (hcode : code.Holds base ((Block.command c rest).layout base))
    (hperform : store.perform c = (.error fault, left)) :
    Fails code ⟨store, base, steps⟩ fault ⟨left, base, steps⟩ := by
  exact fails_of_obey hcode.head (Store.obey_of_perform_error hperform base)

/-- At either end of a loop the machine tests the cell and goes on behind the loop or at the
first instruction of the body. -/
theorem step?_loop {base : Nat} {body rest : Block} {value : UInt8}
    (hcode : code.Holds base ((Block.loop body rest).layout base))
    (hentry : (Block.loop body rest).Entry base index)
    (hcurrent : (store.current : Except (Fault ε) UInt8) = .ok value) :
    step? code ⟨store, index, steps⟩ =
      some ⟨store, ↑(if value = 0 then base + body.size + 2 else base + 1), steps + 1⟩ := by
  obtain rfl | ⟨_, _, heq, rfl⟩ := hentry
  · rw [step?_of_obey hcode.head (by rw [Store.obey, hcurrent])]
    split <;> rfl
  · cases heq
    rw [step?_of_obey (Block.getElem?_loopEnd hcode) (by rw [Store.obey, hcurrent])]
    split <;> rfl

/-- Where there is no cell to test, the machine fails at either end of a loop. -/
theorem fails_loop {base : Nat} {body rest : Block}
    (hcode : code.Holds base ((Block.loop body rest).layout base))
    (hentry : (Block.loop body rest).Entry base index)
    (hcurrent : store.current = .error fault) :
    Fails code ⟨store, index, steps⟩ fault ⟨store, index, steps⟩ := by
  obtain rfl | ⟨_, _, heq, rfl⟩ := hentry
  · exact fails_of_obey hcode.head (by rw [Store.obey, hcurrent])
  · cases heq
    exact fails_of_obey (Block.getElem?_loopEnd hcode) (by rw [Store.obey, hcurrent])

end Machine

end TapeMachine
