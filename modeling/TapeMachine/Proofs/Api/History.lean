import TapeMachine.Api.Service
import TapeMachine.Proofs.Registry.Effect

/-!
# Histories of the HTTP service

A history is a list of requests, answered one after the other. To the registry it is a history of
registry calls, `Reading.serve_eq`, since every request makes at most one of them. `Told` lists what
an answer can be, and `Reading.handle_told` says that every answer is one of these; what a request
does to the registry is read off there.

None of this depends on how requests are read: every `Reading` will do.
-/

namespace TapeMachine.Api

/-- The call of the registry that carries out a call, if it takes one. -/
def Call.registryCall? : Call → Option Registry.Call
  | create code => some (.register code)
  | fetch id | runStored id _ => some (.find id)
  | delete id => some (.remove id)
  | parse _ | run .. => none

/-- The call of the registry that carries out a request, if it takes one. -/
def Reading.registryCall? (reading : Reading) (request : Request) : Option Registry.Call :=
  (reading.read request).toOption.bind Call.registryCall?

/-- The calls of the registry that carry out a history. -/
def Reading.registryCalls (reading : Reading) (history : List Request) : List Registry.Call :=
  history.flatMap fun request ↦ (reading.registryCall? request).toList

/-- The registry after a history. -/
def Reading.serve (reading : Reading) (registry : Registry) (history : List Request) : Registry :=
  history.foldl (fun registry request ↦ (reading.handle request registry).registry) registry

/-- The id under which a program has been stored, according to the answer. -/
def Reply.createdId? : Reply → Option String
  | created id _ => some id
  | _ => none

/-- The ids of all answers of a history that a program has been stored. -/
def Reading.createdIds (reading : Reading) (registry : Registry) : List Request → List String
  | [] => []
  | request :: later =>
      (reading.handle request registry).reply.createdId?.toList ++
        reading.createdIds (reading.handle request registry).registry later

/-- The answer leaves the registry as it was, and says of no program that it has been stored or
evicted. -/
structure Answer.Quiet (told : Answer) (registry : Registry) : Prop where
  registry_eq : told.registry = registry
  createdId? : told.reply.createdId? = none
  not_evicted : ∀ id, .evicted id ∉ told.entries

/-- What an answer can be. Only the answers that a program has been stored or deleted come with
another registry, and only the first can report that programs have been evicted. -/
inductive Told (reading : Reading) (registry : Registry) (request : Request) : Answer → Prop where
  | quiet {told : Answer}
      (hcall : ∀ made, reading.registryCall? request = some made → ∃ id, made = .find id)
      (h : told.Quiet registry) : Told reading registry request told
  | refused {code : String} {fault : BracketFault}
      (hcall : reading.read request = .ok (.create code))
      (hcompile : compile (Source.ofText code) = .error fault) :
      Told reading registry request ⟨.rejected fault, [.rejected fault], registry⟩
  | created {code : String} {program : Program} (hcall : reading.read request = .ok (.create code))
      (hcompile : compile (Source.ofText code) = .ok program) :
      Told reading registry request
        ⟨.created (registry.store program).record.id (.ofProgram program),
          Registry.registrationEntries code (registry.store program).record
            (registry.store program).evicted,
          (registry.store program).registry⟩
  | missing {id : String} (hcall : reading.read request = .ok (.delete id))
      (hfind : registry.find? id = none) :
      Told reading registry request ⟨.nothingToDelete id, [], registry⟩
  | deleted {id : String} {record : Record} (hcall : reading.read request = .ok (.delete id))
      (hfind : registry.find? id = some record) :
      Told reading registry request ⟨.deleted, [], registry.erase id⟩

variable {reading : Reading} {registry : Registry} {request : Request} {told : Answer}

/-! ## Every answer is one of these -/

/-- A refusal does not say that a program has been stored. -/
theorem Reply.IsRefusal.createdId? {reply : Reply} (h : reply.IsRefusal) :
    reply.createdId? = none := by
  cases h <;> rfl

/-- A run of a program stores nothing and reports no eviction. -/
theorem quiet_runProgram (program : Program) (options : RunOptions) (entries : List LogEntry)
    (registry : Registry) (h : ∀ id, .evicted id ∉ entries) :
    Answer.Quiet ⟨(runProgram program options).1, entries ++ (runProgram program options).2,
      registry⟩ registry := by
  simp only [runProgram]
  generalize Machine.executeWithin 0 program.code _ _ = result
  obtain ⟨outcome, machine⟩ := result
  cases outcome with
  | finished | limitReached | unfinished =>
      exact ⟨rfl, rfl, by simpa [LogEntry.ofExecute] using h⟩
  | faulted fault =>
      cases fault with
      | device refusal =>
          cases refusal <;> exact ⟨rfl, rfl, by simpa [ConsoleFault.isTransfer] using h⟩
      | fetch | noCell => exact ⟨rfl, rfl, by simpa using h⟩

/-- Other calls than those to store or delete a program are answered quietly. -/
theorem answer_quiet {call : Call} (hcreate : ∀ code, call ≠ .create code)
    (hdelete : ∀ id, call ≠ .delete id) (registry : Registry) :
    (answer call registry).Quiet registry := by
  cases call with
  | parse code =>
      rcases hcompile : compile (Source.ofText code) with fault | program <;>
        simp only [answer, hcompile] <;> exact ⟨rfl, rfl, by simp⟩
  | run code options =>
      rcases hcompile : compile (Source.ofText code) with fault | program <;>
        simp only [answer, hcompile]
      · exact ⟨rfl, rfl, by simp⟩
      · exact quiet_runProgram program options [.compiled _ _] registry (by simp)
  | create code => exact absurd rfl (hcreate code)
  | fetch id =>
      cases hfind : registry.find? id <;> simp only [answer, hfind] <;> exact ⟨rfl, rfl, by simp⟩
  | delete id => exact absurd rfl (hdelete id)
  | runStored id options =>
      cases hfind : registry.find? id <;> simp only [answer, hfind]
      case none => exact ⟨rfl, rfl, by simp⟩
      case some record => exact quiet_runProgram record.program options [] registry (by simp)

namespace Reading

/-- The call of the registry that a request takes is that of its call. -/
theorem registryCall?_of_read {call : Call} (h : reading.read request = .ok call) :
    reading.registryCall? request = call.registryCall? := by
  rw [registryCall?, h]
  rfl

/-- A request that makes a call is answered as the call is. -/
theorem handle_of_read {call : Call} (h : reading.read request = .ok call) :
    reading.handle request registry = answer call registry := by
  unfold handle
  rw [h]

/-- Every answer is one of these. -/
theorem handle_told (reading : Reading) (request : Request) (registry : Registry) :
    Told reading registry request (reading.handle request registry) := by
  cases hcall : reading.read request with
  | error reply =>
      unfold handle
      rw [hcall]
      refine .quiet ?_ ⟨rfl, (reading.isRefusal hcall).createdId?, nofun⟩
      rw [registryCall?, hcall]
      nofun
  | ok call =>
      have hmade := registryCall?_of_read hcall
      rw [handle_of_read hcall]
      cases call with
      | parse code | run code options =>
          refine .quiet ?_ (answer_quiet (by simp) (by simp) registry)
          rw [hmade]
          nofun
      | fetch id | runStored id options =>
          refine .quiet ?_ (answer_quiet (by simp) (by simp) registry)
          intro made hfind
          exact ⟨id, (Option.some.inj (hmade.symm.trans hfind)).symm⟩
      | create code =>
          rcases hcompile : compile (Source.ofText code) with fault | program <;>
            simp only [answer, Registry.register, hcompile]
          · exact .refused hcall hcompile
          · exact .created hcall hcompile
      | delete id =>
          cases hfind : registry.find? id <;> simp only [answer, hfind]
          case none => exact .missing hcall hfind
          case some record => exact .deleted hcall hfind

end Reading

/-! ## What a history does to the registry -/

/-- The registry of an answer is the one that the call of the registry leaves. -/
theorem Told.registry_eq (h : Told reading registry request told) :
    told.registry = registry.afterAll (reading.registryCall? request).toList := by
  cases h with
  | quiet hcall hquiet =>
      rw [hquiet.registry_eq]
      cases hmade : reading.registryCall? request with
      | none => rfl
      | some made =>
          obtain ⟨id, rfl⟩ := hcall made hmade
          show registry = (registry.call (.find id)).2
          simp only [Registry.call]
          split <;> rfl
  | refused hcall hcompile =>
      rw [Reading.registryCall?_of_read hcall]
      exact (congrArg Prod.snd (Registry.call_register_of_error hcompile)).symm
  | created hcall hcompile =>
      rw [Reading.registryCall?_of_read hcall]
      exact (congrArg Prod.snd (Registry.call_register_of_ok hcompile)).symm
  | missing hcall hfind =>
      rw [Reading.registryCall?_of_read hcall]
      exact (Registry.erase_of_find?_eq_none hfind).symm
  | deleted hcall hfind =>
      rw [Reading.registryCall?_of_read hcall]
      rfl

/-- An answer says that a program has been stored where the call of the registry has stored it. -/
theorem Told.createdId?_eq (h : Told reading registry request told) :
    told.reply.createdId?.toList =
      (registry.registered (reading.registryCall? request).toList).map Record.id := by
  cases h with
  | quiet hcall hquiet =>
      rw [hquiet.createdId?]
      cases hmade : reading.registryCall? request with
      | none => rfl
      | some made =>
          obtain ⟨id, rfl⟩ := hcall made hmade
          simp only [Option.toList_some, Registry.registered, Registry.call]
          split <;> rfl
  | refused hcall hcompile =>
      rw [Reading.registryCall?_of_read hcall]
      simp only [Call.registryCall?, Option.toList_some, Registry.registered,
        Registry.call_register_of_error hcompile]
      rfl
  | created hcall hcompile =>
      rw [Reading.registryCall?_of_read hcall]
      simp only [Call.registryCall?, Option.toList_some, Registry.registered,
        Registry.call_register_of_ok hcompile]
      rfl
  | missing hcall | deleted hcall =>
      rw [Reading.registryCall?_of_read hcall]
      rfl

namespace Reading

/-- A history made in two parts is carried out in two parts. -/
theorem registryCalls_append (before later : List Request) :
    reading.registryCalls (before ++ later) =
      reading.registryCalls before ++ reading.registryCalls later :=
  List.flatMap_append

/-- A history is carried out request by request. -/
theorem registryCalls_cons (request : Request) (later : List Request) :
    reading.registryCalls (request :: later) =
      (reading.registryCall? request).toList ++ reading.registryCalls later :=
  List.flatMap_cons

/-- A history is a history of the calls of the registry that carry it out. -/
theorem serve_eq (registry : Registry) (history : List Request) :
    reading.serve registry history = registry.afterAll (reading.registryCalls history) := by
  induction history generalizing registry with
  | nil => rfl
  | cons request later ih =>
      rw [registryCalls_cons, Registry.afterAll_append, ← (reading.handle_told _ _).registry_eq]
      exact ih _

/-- The ids of the answers are those of the records that are stored. -/
theorem createdIds_eq (registry : Registry) (history : List Request) :
    reading.createdIds registry history =
      (registry.registered (reading.registryCalls history)).map Record.id := by
  induction history generalizing registry with
  | nil => rfl
  | cons request later ih =>
      rw [registryCalls_cons, Registry.registered_append, List.map_append,
        ← (reading.handle_told _ _).createdId?_eq, ← (reading.handle_told _ _).registry_eq,
        createdIds, ih]

/-- A history made in two parts. -/
theorem serve_append (registry : Registry) (before later : List Request) :
    reading.serve registry (before ++ later) =
      reading.serve (reading.serve registry before) later :=
  List.foldl_append

end Reading

end TapeMachine.Api
