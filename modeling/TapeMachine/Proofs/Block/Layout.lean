import TapeMachine.Proofs.Block

/-!
# The layout of a block

`Block.layout` lists the instructions of a block whose first instruction has a given index. It is
`Block.emit` without the program under construction: `toList_assemble` says that assembling a
block gives its layout from index zero.
-/

namespace TapeMachine.Block

/-- The instructions of a block in order, where the first has the index `base`. -/
def layout (base : Nat) : Block → List Instruction
  | nil => []
  | command c rest => .command c :: rest.layout (base + 1)
  | loop body rest =>
      .loopStart ↑(base + body.size + 1) ::
        (body.layout (base + 1) ++ .loopEnd base :: rest.layout (base + body.size + 2))

/-- A layout has as many instructions as its block. -/
@[simp] theorem length_layout (block : Block) (base : Nat) :
    (block.layout base).length = block.size := by
  induction block generalizing base with
  | nil => rfl
  | command c rest ih => simp [layout, size, ih]
  | loop body rest ihBody ihRest =>
      simp only [layout, size, List.length_cons, List.length_append, ihBody, ihRest]
      omega

/-- Emitting a block appends its layout. -/
theorem toList_emit (block : Block) (program : Program) :
    (block.emit program).toList = program.toList ++ block.layout program.size := by
  induction block generalizing program with
  | nil => simp [emit, layout]
  | command c rest ih => simp [emit, layout, ih]
  | loop body rest ihBody ihRest =>
      have hsize : (body.emit (program.push (.loopStart 0))).size =
          program.size + body.size + 1 := by
        rw [size_emit, Array.size_push]
        omega
      simp only [emit, layout, ihRest, Array.size_push, Array.size_setIfInBounds, hsize,
        Array.toList_push, Array.toList_setIfInBounds, ihBody]
      simp

/-- An assembled block is its layout from index zero. -/
theorem toList_assemble (block : Block) : block.assemble.toList = block.layout 0 := by
  simp [assemble, toList_emit]

/-- An assembled block has as many instructions as the block. -/
@[simp] theorem size_assemble (block : Block) : block.assemble.size = block.size := by
  rw [← Array.length_toList, toList_assemble, length_layout]

/-- Different blocks have different layouts. -/
theorem layout_injective {first second : Block} {base : Nat}
    (h : first.layout base = second.layout base) : first = second := by
  induction first generalizing second base with
  | nil =>
      cases second with
      | nil => rfl
      | command | loop => cases h
  | command c rest ih =>
      cases second with
      | nil | loop => cases h
      | command d rest' =>
          obtain ⟨hhead, htail⟩ := List.cons.inj h
          cases hhead
          rw [ih htail]
  | loop body rest ihBody ihRest =>
      cases second with
      | nil | command => cases h
      | loop body' rest' =>
          obtain ⟨hhead, htail⟩ := List.cons.inj h
          -- the target at the start of a loop tells how long its body is
          have hsize : body.size = body'.size := by
            simp only [Instruction.loopStart.injEq] at hhead
            omega
          obtain ⟨hbody, hrest⟩ := List.append_inj htail (by simpa using hsize)
          rw [hsize] at hrest
          rw [ihBody hbody, ihRest (List.cons.inj hrest).2]

/-- Different blocks are assembled to different programs. -/
theorem assemble_injective {first second : Block} (h : first.assemble = second.assemble) :
    first = second := by
  have hlayout : first.layout 0 = second.layout 0 := by
    rw [← toList_assemble, ← toList_assemble, h]
  exact layout_injective hlayout

/-- The loop instructions of a layout name indices within it. -/
theorem layout_targets (block : Block) (base : Nat) :
    (∀ close, .loopStart close ∈ block.layout base →
      (base : Int) ≤ close ∧ close < (base + block.size : Nat)) ∧
    ∀ start, .loopEnd start ∈ block.layout base →
      (base : Int) ≤ start ∧ start < (base + block.size : Nat) := by
  induction block generalizing base with
  | nil => simp [layout]
  | command c rest ih =>
      obtain ⟨hstart, hend⟩ := ih (base + 1)
      simp only [layout, size, List.mem_cons, reduceCtorEq, false_or]
      constructor
      · intro close hmem
        have hbounds := hstart close hmem
        omega
      · intro start hmem
        have hbounds := hend start hmem
        omega
  | loop body rest ihBody ihRest =>
      obtain ⟨hbodyStart, hbodyEnd⟩ := ihBody (base + 1)
      obtain ⟨hrestStart, hrestEnd⟩ := ihRest (base + body.size + 2)
      simp only [layout, size, List.mem_cons, List.mem_append, reduceCtorEq, false_or,
        Instruction.loopStart.injEq, Instruction.loopEnd.injEq]
      constructor
      · rintro close (rfl | hmem | hmem)
        · omega
        · have hbounds := hbodyStart close hmem
          omega
        · have hbounds := hrestStart close hmem
          omega
      · rintro start (hmem | rfl | hmem)
        · have hbounds := hbodyEnd start hmem
          omega
        · omega
        · have hbounds := hrestEnd start hmem
          omega

end TapeMachine.Block
