import TapeMachine.Proofs.Api.History
import TapeMachine.Proofs.Registry.History

/-!
# Runs of stored programs

A client can have a program run from its source, or store it and have it run under its id. The main
theorem, `runStored_agrees`, says that this makes no difference, whatever requests have come in
between: as long as there is a program under the id, a run of it is answered as a run of its source
is, and as a run of the normal form that was shown when it was stored.

All three answers come from `runProgram` and one and the same program. `Holds` is the invariant that
no request puts another program in its place, and a stored program is compiled from its normal form
again.
-/

namespace TapeMachine.Api

/-- No other program than this one is stored under the id. -/
def Holds (registry : Registry) (id : String) (program : Program) : Prop :=
  ∀ record ∈ registry.records, record.id = id → record.program = program

variable {reading : Reading} {registry start : Registry} {request creation : Request}
  {told : Answer} {id code : String} {program : Program} {options : RunOptions}
  {before later : List Request} {view : ProgramView}

/-- A program that is found under the id is this one. -/
theorem Holds.program_eq {record : Record} (h : Holds registry id program)
    (hfind : registry.find? id = some record) : record.program = program := by
  have hid : record.id = id := by simpa using List.find?_some hfind
  exact h record (List.mem_of_find?_eq_some hfind) hid

/-- Other records after storing a program were there before, under other ids than its own. -/
theorem mem_store {stored : Record} (h : stored ∈ (registry.store program).registry.records) :
    stored = ⟨registry.supply.next, program⟩ ∨
      stored ∈ registry.records ∧ stored.id ≠ registry.supply.next :=
  Registry.mem_place (List.mem_of_mem_drop h)

/-- A program that has been stored is the only one under its id, it is that of the code, and the
answer shows it. -/
theorem holds_of_created (hcall : reading.read creation = .ok (.create code))
    (hreply : (reading.handle creation registry).reply = .created id view) :
    ∃ program, compile (Source.ofText code) = .ok program ∧ view = .ofProgram program ∧
      Holds (reading.handle creation registry).registry id program := by
  rw [Reading.handle_of_read hcall] at hreply ⊢
  rcases hcompile : compile (Source.ofText code) with fault | program <;>
    simp only [answer, Registry.register, hcompile] at hreply ⊢
  · cases hreply
  · cases hreply
    refine ⟨program, rfl, rfl, fun stored hstored hid ↦ ?_⟩
    obtain rfl | ⟨_, hne⟩ := mem_store hstored
    · rfl
    · exact absurd hid hne

/-- A request that stores nothing under the id leaves no other program there. -/
theorem Told.holds (h : Told reading registry request told) (hholds : Holds registry id program)
    (hother : id ∉ told.reply.createdId?.toList) : Holds told.registry id program := by
  cases h with
  | quiet _ hquiet =>
      rw [hquiet.registry_eq]
      exact hholds
  | refused | missing => exact hholds
  | created =>
      intro stored hstored hid
      obtain rfl | ⟨hmem, _⟩ := mem_store hstored
      · exact absurd (List.mem_singleton.mpr hid.symm) hother
      · exact hholds stored hmem hid
  | deleted => exact fun stored hstored ↦ hholds stored (List.mem_filter.mp hstored).1

/-- A history that stores nothing under the id leaves no other program there. -/
theorem Holds.serve (h : Holds registry id program)
    (hother : id ∉ reading.createdIds registry later) :
    Holds (reading.serve registry later) id program := by
  induction later generalizing registry with
  | nil => exact h
  | cons request later ih =>
      obtain ⟨hfirst, hrest⟩ := not_or.mp (mt List.mem_append.mpr hother)
      exact ih ((reading.handle_told request registry).holds h hfirst) hrest

/-- A request to run a code that compiles is answered by a run of its program. -/
theorem reply_run (hcall : reading.read request = .ok (.run code options))
    (hcompile : compile (Source.ofText code) = .ok program) :
    (reading.handle request registry).reply = (runProgram program options).1 := by
  rw [Reading.handle_of_read hcall]
  simp only [answer, hcompile]

/-- A request to run a stored program is answered by a run of it. -/
theorem reply_runStored {record : Record}
    (hcall : reading.read request = .ok (.runStored id options))
    (hfind : registry.find? id = some record) :
    (reading.handle request registry).reply = (runProgram record.program options).1 := by
  rw [Reading.handle_of_read hcall]
  simp only [answer, hfind]

/-- A stored program is run as it would be run from its source.

Where a request has stored a code under an id, any requests may follow that do not store another one
under this id. As long as there is a program under it, a request to run it is answered exactly as a
request to run the code, and as a request to run the normal form that was shown when it was stored,
with the same options and at any time. So all three have the same status and the same body. -/
theorem runStored_agrees (hcreate : reading.read creation = .ok (.create code))
    (hcreated : (reading.handle creation (reading.serve start before)).reply = .created id view)
    (hother : id ∉ reading.createdIds
      (reading.handle creation (reading.serve start before)).registry later)
    (hstored : (reading.serve start (before ++ creation :: later)).find? id ≠ none)
    (options : RunOptions) (stored direct normal : Request) (elsewhere : Registry)
    (hrunStored : reading.read stored = .ok (.runStored id options))
    (hrun : reading.read direct = .ok (.run code options))
    (hrunNormal : reading.read normal = .ok (.run view.normalized options)) :
    let reply := (reading.handle stored (reading.serve start (before ++ creation :: later))).reply
    reply = (reading.handle direct elsewhere).reply ∧
      reply = (reading.handle normal elsewhere).reply := by
  obtain ⟨program, hcompile, rfl, hholds⟩ := holds_of_created hcreate hcreated
  obtain ⟨record, hfind⟩ := Option.ne_none_iff_exists'.mp hstored
  have hprogram : record.program = program := by
    rw [Reading.serve_append] at hfind
    exact (hholds.serve hother).program_eq hfind
  have hcompileNormal : compile (Source.ofText (ProgramView.ofProgram program).normalized) =
      .ok program := by
    have hrecord : compile (Source.ofText code) = .ok (⟨id, program⟩ : Record).program := hcompile
    exact (Record.comesBack hrecord).2.2
  intro reply
  have hreply : reply = (runProgram program options).1 := by
    rw [← hprogram]
    exact reply_runStored hrunStored hfind
  rw [hreply, reply_run hrun hcompile, reply_run hrunNormal hcompileNormal]
  exact ⟨rfl, rfl⟩

/-- A program with a comment in its code, which is run after it has been stored twice. -/
theorem runStored_agrees_comment :
    let creation : Request := ⟨"POST", "/api/programs",
      [0x7B, 0x22, 0x63, 0x6F, 0x64, 0x65, 0x22, 0x3A, 0x22, 0x2B, 0x21, 0x22, 0x7D]⟩
    let stored : Request := ⟨"POST", "/api/programs/a/run", [0x7B, 0x7D]⟩
    let direct : Request := ⟨"POST", "/api/run", creation.body⟩
    let normal : Request := ⟨"POST", "/api/run",
      [0x7B, 0x22, 0x63, 0x6F, 0x64, 0x65, 0x22, 0x3A, 0x22, 0x2B, 0x22, 0x7D]⟩
    let start : Registry := ⟨2, by decide, [], .ofChosen #["a", "b"]⟩
    let reply := (service.handle stored (service.serve start [creation, creation])).reply
    reply = (service.handle direct start).reply ∧ reply = (service.handle normal start).reply := by
  intro creation stored direct normal start
  let program : Program := #[.command (.add 1)]
  have hcreate : service.read creation = .ok (.create "+!") := by
    simp only [creation]
    rfl
  have hcreated : (service.handle creation (service.serve start [])).reply =
      .created "a" (.ofProgram program) := by
    decide +kernel
  have hother : "a" ∉ service.createdIds
      (service.handle creation (service.serve start [])).registry [creation] := by
    decide +kernel
  have hstored : (service.serve start ([] ++ creation :: [creation])).find? "a" ≠ none := by
    decide +kernel
  have hnormalized : (ProgramView.ofProgram program).normalized = "+" := by
    decide +kernel
  obtain ⟨options, hrunStored, hrun, hrunNormal⟩ :
      ∃ options, service.read stored = .ok (.runStored "a" options) ∧
        service.read direct = .ok (.run "+!" options) ∧
        service.read normal = .ok (.run "+" options) := by
    simp only [stored, direct, normal, creation]
    exact ⟨⟨[], defaultStepLimit, defaultTapeSize, by decide, by decide, by decide, by decide⟩,
      rfl, rfl, rfl⟩
  rw [← hnormalized] at hrunNormal
  exact runStored_agrees hcreate hcreated hother hstored options stored direct normal start
    hrunStored hrun hrunNormal

end TapeMachine.Api
