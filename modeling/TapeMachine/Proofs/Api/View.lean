import Mathlib.Data.Int.ModEq
import Mathlib.Tactic.TFAE
import TapeMachine.Proofs.Api.Posting
import TapeMachine.Proofs.Api.Stored

/-!
# What answers show of programs

An answer that shows a program lists its instructions and gives its normal form. The main theorem,
`views_agree`, says that both tell the whole program. A listing is read back item by item, whatever
the operands are. A normal form is compiled to the program that it is the normal form of, so it
tells programs apart as long as they have been compiled.

That an answer shows nothing but compiled programs is an invariant of the registry, `Compiled`. What
it means for the items of a listing is `coherent_itemsOf`.
-/

namespace TapeMachine.Api

/-! ## Listings -/

/-- The items that list a program. -/
def itemsOf (program : Program) : List Json :=
  program.listing.map rowJson

/-- The instruction that an item shows. -/
def itemInstruction? (item : Json) : Option Instruction :=
  match item.member? "op", item.member? "delta", item.member? "end", item.member? "start" with
  | some (.string "add"), some (.integer delta), _, _ => some (.command (.add delta))
  | some (.string "move"), some (.integer delta), _, _ => some (.command (.move delta))
  | some (.string "write"), _, _, _ => some (.command .write)
  | some (.string "read"), _, _, _ => some (.command .read)
  | some (.string "loop_start"), _, some (.integer close), _ => some (.loopStart close)
  | some (.string "loop_end"), _, _, some (.integer start) => some (.loopEnd start)
  | _, _, _, _ => none

variable {program : Program}

/-- An item shows the instruction that it has been made from. -/
theorem itemInstruction?_rowJson (index : Nat) (instruction : Instruction) :
    itemInstruction? (rowJson (instruction.row index)) = some instruction := by
  cases instruction with
  | command c => cases c <;> rfl
  | loopStart | loopEnd => rfl

/-- The items of a listing are those of its instructions in order. -/
theorem getElem?_itemsOf (program : Program) (k : Nat) :
    (itemsOf program)[k]? = program[k]?.map fun instruction ↦ rowJson (instruction.row k) := by
  simp [itemsOf, Program.listing, rowsFrom, List.getElem?_zipIdx, Function.comp_def]

/-- Reading the items of a listing gives the instructions of the program. -/
theorem map_itemsOf (program : Program) :
    (itemsOf program).map itemInstruction? = program.toList.map some := by
  refine List.ext_getElem? fun k ↦ ?_
  rw [List.getElem?_map, getElem?_itemsOf, List.getElem?_map, Array.getElem?_toList,
    Option.map_map]
  exact congrArg (Option.map · _) (funext (itemInstruction?_rowJson k))

/-- Programs with the same listing are the same. -/
theorem itemsOf_injective : Function.Injective itemsOf := by
  intro first second h
  have hread := congrArg (List.map itemInstruction?) h
  rw [map_itemsOf, map_itemsOf] at hread
  exact Array.toList_inj.mp (List.map_injective_iff.mpr (Option.some_injective _) hread)

/-- The items of a listing go together: they are numbered in order, the offset of a move is its
delta as a signed word, and the starts and ends of loops name each other. -/
structure Coherent (items : List Json) : Prop where
  index : ∀ (k : Nat) item, items[k]? = some item → item.member? "index" = some (.integer k)
  move : ∀ item ∈ items, item.member? "op" = some (.string "move") →
    ∃ delta offset, item.member? "delta" = some (.integer delta) ∧
      item.member? "offset" = some (.integer offset) ∧
      -2 ^ 63 ≤ offset ∧ offset < 2 ^ 63 ∧ offset ≡ delta [ZMOD 2 ^ 64]
  loopStart : ∀ (i : Nat) item, items[i]? = some item →
    item.member? "op" = some (.string "loop_start") →
    ∃ (j : Nat) (partner : Json), item.member? "end" = some (.integer j) ∧
      items[j]? = some partner ∧ partner.member? "op" = some (.string "loop_end") ∧
      partner.member? "start" = some (.integer i)
  loopEnd : ∀ (j : Nat) item, items[j]? = some item →
    item.member? "op" = some (.string "loop_end") →
    ∃ (i : Nat) (partner : Json), item.member? "start" = some (.integer i) ∧
      items[i]? = some partner ∧ partner.member? "op" = some (.string "loop_start") ∧
      partner.member? "end" = some (.integer j)

variable {index k : Nat} {item : Json} {instruction : Instruction}

/-- An item of a listing is the item of the instruction at its index. -/
theorem exists_eq_rowJson (h : (itemsOf program)[k]? = some item) :
    ∃ instruction, program[k]? = some instruction ∧ rowJson (instruction.row k) = item := by
  rwa [getElem?_itemsOf, Option.map_eq_some_iff] at h

/-- Where there is an instruction, there is its item. -/
theorem getElem?_itemsOf_of_some (h : program[k]? = some instruction) :
    (itemsOf program)[k]? = some (rowJson (instruction.row k)) := by
  rw [getElem?_itemsOf, h]
  rfl

/-- The operation that an item names is that of its row. -/
theorem operation_of_member? {row : Row} {name : String}
    (h : (rowJson row).member? "op" = some (.string name)) : row.operation = name :=
  JsonOf.string.inj (Option.some.inj h)

/-- Only moves are listed as moves. -/
theorem exists_eq_move
    (h : (rowJson (instruction.row index)).member? "op" = some (.string "move")) :
    ∃ delta, instruction = .command (.move delta) := by
  have hname := operation_of_member? h
  cases instruction with
  | command c => cases c <;> simp [Instruction.row] at hname ⊢
  | loopStart | loopEnd => simp [Instruction.row] at hname

/-- Only the starts of loops are listed as such. -/
theorem exists_eq_loopStart
    (h : (rowJson (instruction.row index)).member? "op" = some (.string "loop_start")) :
    ∃ close, instruction = .loopStart close := by
  have hname := operation_of_member? h
  cases instruction with
  | command c => cases c <;> simp [Instruction.row] at hname
  | loopStart close => exact ⟨close, rfl⟩
  | loopEnd => simp [Instruction.row] at hname

/-- Only the ends of loops are listed as such. -/
theorem exists_eq_loopEnd
    (h : (rowJson (instruction.row index)).member? "op" = some (.string "loop_end")) :
    ∃ start, instruction = .loopEnd start := by
  have hname := operation_of_member? h
  cases instruction with
  | command c => cases c <;> simp [Instruction.row] at hname
  | loopStart => simp [Instruction.row] at hname
  | loopEnd start => exact ⟨start, rfl⟩

/-- The items of a well-formed program go together. -/
theorem coherent_itemsOf (h : program.WellFormed) : Coherent (itemsOf program) := by
  constructor
  case index =>
    intro k item hk
    obtain ⟨instruction, -, rfl⟩ := exists_eq_rowJson hk
    cases instruction with
    | command c => cases c <;> rfl
    | loopStart | loopEnd => rfl
  case move =>
    intro item hmem hop
    obtain ⟨k, hk⟩ := List.mem_iff_getElem?.mp hmem
    obtain ⟨instruction, hinstruction, rfl⟩ := exists_eq_rowJson hk
    obtain ⟨delta, rfl⟩ := exists_eq_move hop
    obtain ⟨hlow, hhigh⟩ := h.inRange _ (Array.mem_of_getElem? hinstruction)
    obtain ⟨hleast, hgreatest⟩ := signedOffset_bounds hlow hhigh
    exact ⟨delta, signedOffset delta, rfl, rfl, hleast, hgreatest, signedOffset_emod_modulus delta⟩
  case loopStart =>
    intro i item hi hop
    obtain ⟨instruction, hstart, rfl⟩ := exists_eq_rowJson hi
    obtain ⟨close, rfl⟩ := exists_eq_loopStart hop
    obtain ⟨j, rfl, hend, -⟩ := h.exists_loopEnd hstart
    exact ⟨j, _, rfl, getElem?_itemsOf_of_some hend, rfl, rfl⟩
  case loopEnd =>
    intro j item hj hop
    obtain ⟨instruction, hend, rfl⟩ := exists_eq_rowJson hj
    obtain ⟨start, rfl⟩ := exists_eq_loopEnd hop
    obtain ⟨i, rfl, hstart, -⟩ := h.exists_loopStart hend
    exact ⟨i, _, rfl, getElem?_itemsOf_of_some hstart, rfl, rfl⟩

/-! ## Programs in answers -/

/-- The member with this key of the body of an answer. -/
def Reply.member? (reply : Reply) (key : String) : Option Json :=
  reply.body.bind (JsonOf.member? key)

/-- The view of a program that an answer shows, if it shows one. -/
def Reply.view? : Reply → Option ProgramView
  | parsed view | created _ view | found _ view => some view
  | _ => none

/-- If the answer lists instructions, it gives their number and they go together. -/
def Reply.Consistent (reply : Reply) : Prop :=
  ∀ items, reply.member? "instructions" = some (.array items) →
    reply.member? "instruction_count" = some (.integer items.length) ∧ Coherent items

variable {reply : Reply} {view : ProgramView} {source : Source}

/-- What an answer shows of a program. -/
theorem member?_of_view? (h : reply.view? = some (.ofProgram program)) :
    reply.member? "instructions" = some (.array (itemsOf program)) ∧
      reply.member? "instruction_count" = some (.integer (itemsOf program).length) ∧
      reply.member? "normalized" = some (.string (Operator.toText program.spell)) := by
  cases reply <;> cases h <;> refine ⟨rfl, ?_, rfl⟩
  all_goals
    rw [itemsOf, List.length_map]
    rfl

/-- Only answers that show a program list instructions. -/
theorem exists_view?_of_member? {listed : Json} (h : reply.member? "instructions" = some listed) :
    ∃ view, reply.view? = some view := by
  cases reply with
  | parsed view | created _ view | found _ view => exact ⟨view, rfl⟩
  | _ => cases h

/-- An answer is consistent that shows a compiled program or none. -/
theorem consistent_of_view? (h : ∀ view, reply.view? = some view →
    ∃ source program, compile source = .ok program ∧ view = .ofProgram program) :
    reply.Consistent := by
  intro items hitems
  obtain ⟨view, hview⟩ := exists_view?_of_member? hitems
  obtain ⟨source, program, hcompile, rfl⟩ := h view hview
  obtain ⟨hlisted, hcount, -⟩ := member?_of_view? hview
  cases hlisted.symm.trans hitems
  exact ⟨hcount, coherent_itemsOf (wellFormed_of_compile hcompile)⟩

/-! ## Every answer shows compiled programs -/

/-- Every stored program has been compiled. -/
def Compiled (registry : Registry) : Prop :=
  ∀ record ∈ registry.records, ∃ source, compile source = .ok record.program

variable {reading : Reading} {registry : Registry} {request : Request} {told : Answer}

/-- A request stores compiled programs only. -/
theorem Told.compiled (h : Told reading registry request told) (hcompiled : Compiled registry) :
    Compiled told.registry := by
  cases h with
  | quiet _ hquiet =>
      rw [hquiet.registry_eq]
      exact hcompiled
  | refused | missing => exact hcompiled
  | created _ hcompile =>
      intro record hrecord
      obtain rfl | ⟨hmem, _⟩ := mem_store hrecord
      · exact ⟨_, hcompile⟩
      · exact hcompiled record hmem
  | deleted => exact fun record hrecord ↦ hcompiled record (List.mem_filter.mp hrecord).1

/-- A history stores compiled programs only. -/
theorem Compiled.serve (h : Compiled registry) (history : List Request) :
    Compiled (reading.serve registry history) := by
  induction history generalizing registry with
  | nil => exact h
  | cons request later ih => exact ih ((reading.handle_told request registry).compiled h)

/-- A refusal shows no program. -/
theorem Reply.IsRefusal.view? (h : reply.IsRefusal) : reply.view? = none := by
  cases h <;> rfl

/-- A run of a program does not show the program. -/
theorem view?_runProgram (program : Program) (options : RunOptions) :
    (runProgram program options).1.view? = none := by
  simp only [runProgram]
  generalize Machine.executeWithin 0 program.code _ _ = result
  obtain ⟨outcome, machine⟩ := result
  cases outcome with
  | finished | limitReached | unfinished => rfl
  | faulted fault =>
      cases fault with
      | device refusal => cases refusal <;> rfl
      | fetch | noCell => rfl

/-- What an answer shows has been compiled, now or when it was stored. -/
theorem exists_compile_of_view? (hcompiled : Compiled registry) (call : Call)
    (h : (answer call registry).reply.view? = some view) :
    ∃ source program, compile source = .ok program ∧ view = .ofProgram program := by
  cases call with
  | parse code =>
      rcases hcompile : compile (Source.ofText code) with fault | program <;>
        simp only [answer, hcompile] at h <;> cases h
      exact ⟨_, program, hcompile, rfl⟩
  | create code =>
      rcases hcompile : compile (Source.ofText code) with fault | program <;>
        simp only [answer, Registry.register, hcompile] at h <;> cases h
      exact ⟨_, program, hcompile, rfl⟩
  | run code options =>
      rcases hcompile : compile (Source.ofText code) with fault | program <;>
        simp only [answer, hcompile, view?_runProgram] at h <;> cases h
  | fetch id =>
      cases hfind : registry.find? id <;> simp only [answer, hfind] at h <;> cases h
      obtain ⟨source, hcompile⟩ := hcompiled _ (List.mem_of_find?_eq_some hfind)
      exact ⟨source, _, hcompile, rfl⟩
  | delete id => cases hfind : registry.find? id <;> simp only [answer, hfind] at h <;> cases h
  | runStored id options =>
      cases hfind : registry.find? id <;>
        simp only [answer, hfind, view?_runProgram] at h <;> cases h

/-- Where compiled programs are stored, every answer is consistent. -/
theorem Compiled.consistent (h : Compiled registry) (request : Request) :
    (reading.handle request registry).reply.Consistent := by
  refine consistent_of_view? fun view hview ↦ ?_
  cases hcall : reading.read request with
  | ok call =>
      rw [Reading.handle_of_read hcall] at hview
      exact exists_compile_of_view? h call hview
  | error reply =>
      unfold Reading.handle at hview
      rw [hcall] at hview
      cases (reading.isRefusal hcall).view?.symm.trans hview

/-! ## Answers to requests to compile -/

/-- A request to compile a code that is accepted is answered with a view of its program. -/
theorem reply_parse {code : String} (hcall : reading.read request = .ok (.parse code))
    (hcompile : compile (Source.ofText code) = .ok program) :
    (reading.handle request registry).reply = .parsed (.ofProgram program) := by
  rw [Reading.handle_of_read hcall]
  simp only [answer, hcompile]

/-- The views of programs lose nothing, agree with each other, and are consistent.

Different programs are listed differently, whatever their operands are. For two codes that are
accepted, the answers list the same instructions exactly when they give the same normal form, and
exactly when the codes compile to the same program. An answer gives a normal form, which can be
posted as a code, and the answer to that is the same again. It is consistent, and so is whatever
else is answered after any history of requests to a service that has compiled all programs that it
started with. -/
theorem views_agree {code code' : String} {program program' : Program}
    (hcompile : compile (Source.ofText code) = .ok program)
    (hcompile' : compile (Source.ofText code') = .ok program') {request request' : Request}
    (hcall : reading.read request = .ok (.parse code))
    (hcall' : reading.read request' = .ok (.parse code')) (registry registry' : Registry) :
    let reply := (reading.handle request registry).reply
    let reply' := (reading.handle request' registry').reply
    Function.Injective itemsOf ∧
    List.TFAE [
      reply.member? "instructions" = reply'.member? "instructions",
      reply.member? "normalized" = reply'.member? "normalized",
      compile (Source.ofText code) = compile (Source.ofText code')] ∧
    (reply.status = 200 ∧ reply.member? "instructions" = some (.array (itemsOf program)) ∧
      ∃ text, reply.member? "normalized" = some (.string text) ∧
        service.read (posting text) = .ok (.parse text) ∧
        ∀ (again : Request) (elsewhere : Registry), reading.read again = .ok (.parse text) →
          (reading.handle again elsewhere).reply = reply) ∧
    reply.Consistent ∧
    ∀ start history next, Compiled start →
      (reading.handle next (reading.serve start history)).reply.Consistent := by
  intro reply reply'
  have hreply : reply = .parsed (.ofProgram program) := reply_parse hcall hcompile
  have hreply' : reply' = .parsed (.ofProgram program') := reply_parse hcall' hcompile'
  have hview : reply.view? = some (.ofProgram program) := by rw [hreply, Reply.view?]
  have hview' : reply'.view? = some (.ofProgram program') := by rw [hreply', Reply.view?]
  obtain ⟨hlisted, -, hnormal⟩ := member?_of_view? hview
  obtain ⟨hlisted', -, hnormal'⟩ := member?_of_view? hview'
  refine ⟨itemsOf_injective, ?_, ⟨?_, hlisted, _, hnormal, call?_posting_toText _, ?_⟩, ?_, ?_⟩
  · tfae_have 1 → 3 := by
      intro h
      rw [hlisted, hlisted'] at h
      rw [hcompile, hcompile', itemsOf_injective (JsonOf.array.inj (Option.some.inj h))]
    tfae_have 2 → 3 := by
      -- both programs are compiled from the one normal form
      intro h
      rw [hnormal, hnormal'] at h
      have htext := JsonOf.string.inj (Option.some.inj h)
      rw [hcompile, hcompile', ← compile_spell_of_compile hcompile,
        ← compile_spell_of_compile hcompile', htext]
    tfae_have 3 → 1 := by
      intro h
      rw [hcompile, hcompile'] at h
      rw [hlisted, hlisted', Except.ok.inj h]
    tfae_have 3 → 2 := by
      intro h
      rw [hcompile, hcompile'] at h
      rw [hnormal, hnormal', Except.ok.inj h]
    tfae_finish
  · rw [hreply, Reply.status]
  · intro again elsewhere hagain
    rw [hreply]
    exact reply_parse hagain (compile_spell_of_compile hcompile)
  · refine consistent_of_view? fun view hshown ↦ ?_
    exact ⟨_, program, hcompile, Option.some.inj (hshown.symm.trans hview)⟩
  · exact fun start history next hstart ↦ (hstart.serve history).consistent next

/-- Two codes of a change by nothing, which have one normal form. -/
theorem views_agree_cancelling :
    let request := posting "+-"
    let request' := posting "-!+"
    let registry : Registry := ⟨1, by decide, [], .ofChosen #[]⟩
    (service.handle request registry).reply.member? "normalized" =
        (service.handle request' registry).reply.member? "normalized" ∧
      (service.handle request registry).reply.Consistent ∧
      (service.handle request' (service.serve registry [request])).reply.Consistent := by
  intro request request' registry
  have hcall : service.read (posting "+-") = .ok (.parse "+-") := rfl
  have hcall' : service.read (posting "-!+") = .ok (.parse "-!+") := rfl
  have hcompile : compile (Source.ofText "+-") = .ok #[.command (.add 0)] := rfl
  have hcompile' : compile (Source.ofText "-!+") = .ok #[.command (.add 0)] := rfl
  have hempty : Compiled registry := fun record hrecord ↦ absurd hrecord List.not_mem_nil
  obtain ⟨-, hagree, -, hconsistent, hserved⟩ :=
    views_agree hcompile hcompile' hcall hcall' registry registry
  exact ⟨(hagree.out 2 1).mp (hcompile.trans hcompile'.symm), hconsistent,
    hserved registry [request] request' hempty⟩

end TapeMachine.Api
