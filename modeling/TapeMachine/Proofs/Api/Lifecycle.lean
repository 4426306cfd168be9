import TapeMachine.Proofs.Api.History
import TapeMachine.Proofs.Registry.History

/-!
# The life of a stored program

A program is stored by the answer that gives it an id, and it is retired by the answer that deletes
it or reports its eviction. The main theorem, `serve_lifecycle`, says for every history of requests
from an empty registry, where no id is given out twice, that clients see nothing else: a program is
shown as it was created until it is retired, and is unknown from then on.

`Told.mem_iff` says of one request which records it leaves stored, and `mem_serve_iff` carries this
over to histories.
-/

namespace TapeMachine.Api

namespace Reading

/-- The answer to a request retires an id: the request deletes it, or the answer reports that it has
been evicted. -/
def Retires (reading : Reading) (id : String) (request : Request) (told : Answer) : Prop :=
  reading.read request = .ok (.delete id) ∧ told.reply.status = 204 ∨ .evicted id ∈ told.entries

/-- An answer of the history retires the id. -/
def Retired (reading : Reading) (id : String) (registry : Registry) : List Request → Prop
  | [] => False
  | request :: later =>
      reading.Retires id request (reading.handle request registry) ∨
        reading.Retired id (reading.handle request registry).registry later

/-- The request asks for what is stored under the id: to show it, to run it or to delete it. -/
def Concerns (reading : Reading) (request : Request) (id : String) : Prop :=
  reading.read request = .ok (.fetch id) ∨
    (∃ options, reading.read request = .ok (.runStored id options)) ∨
    reading.read request = .ok (.delete id)

/-- Every request for the id is answered that there is no such program. -/
def Unknown (reading : Reading) (registry : Registry) (id : String) : Prop :=
  ∀ request, reading.Concerns request id → (reading.handle request registry).reply.status = 404

end Reading

variable {reading : Reading} {registry start : Registry} {request : Request} {told : Answer}
  {record : Record} {id : String} {before later history : List Request}

/-- An id under which nothing is found is unknown. -/
theorem unknown_of_find? (h : registry.find? id = none) : reading.Unknown registry id := by
  intro request hconcerns
  obtain hcall | ⟨options, hcall⟩ | hcall := hconcerns <;> rw [Reading.handle_of_read hcall] <;>
    simp only [answer, h] <;> rfl

/-- A registration leaves a stored record stored exactly when it does not evict its id. -/
theorem mem_store_iff {program : Program}
    (hids : ((registry.records ++ [(registry.store program).record]).map Record.id).Nodup)
    (hmem : record ∈ registry.records) :
    record ∈ (registry.store program).registry.records ↔
      record.id ∉ (registry.store program).evicted.map Record.id := by
  have hsplit : registry.records ++ [(registry.store program).record] =
      (registry.store program).evicted ++ (registry.store program).registry.records := by
    have hfresh : (registry.store program).record.id ∉ registry.records.map Record.id := by
      rw [List.map_append, List.nodup_append] at hids
      exact fun h ↦ hids.2.2 _ h _ (List.mem_singleton_self _) rfl
    obtain ⟨hevicted, hrecords⟩ := Registry.store_of_fresh hfresh
    rw [hevicted, hrecords, List.take_append_drop]
  rw [hsplit, List.map_append, List.nodup_append] at hids
  constructor
  · intro hafter hevicted
    exact hids.2.2 _ hevicted _ (List.mem_map_of_mem hafter) rfl
  · intro hnot
    have hall : record ∈ (registry.store program).evicted ++
        (registry.store program).registry.records := hsplit ▸ List.mem_append_left _ hmem
    exact (List.mem_append.mp hall).resolve_left fun h ↦ hnot (List.mem_map_of_mem h)

/-- A stored record is stored after a request exactly when the answer does not retire its id. -/
theorem Told.mem_iff (h : Told reading registry request told)
    (hdistinct : registry.Distinct (reading.registryCall? request).toList)
    (hmem : record ∈ registry.records) :
    record ∈ told.registry.records ↔ ¬ reading.Retires record.id request told := by
  cases h with
  | quiet hcall hquiet =>
      rw [hquiet.registry_eq]
      refine iff_of_true hmem ?_
      rintro (⟨hdelete, _⟩ | hevicted)
      · obtain ⟨_, hmade⟩ := hcall _ (Reading.registryCall?_of_read hdelete)
        cases hmade
      · exact hquiet.not_evicted _ hevicted
  | refused hcall =>
      refine iff_of_true hmem ?_
      simp [Reading.Retires, hcall]
  | @created code program hcall hcompile =>
      rw [Reading.registryCall?_of_read hcall] at hdistinct
      have hids :
          ((registry.records ++ [(registry.store program).record]).map Record.id).Nodup := by
        simpa [Registry.Distinct, Call.registryCall?, Registry.registered,
          Registry.call_register_of_ok hcompile, Registry.Result.stored?] using hdistinct
      rw [mem_store_iff hids hmem]
      simp [Reading.Retires, hcall, Registry.registrationEntries]
  | missing hcall =>
      refine iff_of_true hmem ?_
      simp [Reading.Retires, Reply.status]
  | @deleted id stored hcall hfind =>
      have hne : record.id ≠ id ↔ id ≠ record.id := ne_comm
      simp [Reading.Retires, Reply.status, hcall, Registry.erase, hmem, hne]

/-- A stored record is stored after a history exactly when no answer of it retires its id. -/
theorem mem_serve_iff (hdistinct : registry.Distinct (reading.registryCalls later))
    (hmem : record ∈ registry.records) :
    record ∈ (reading.serve registry later).records ↔
      ¬ reading.Retired record.id registry later := by
  induction later generalizing registry with
  | nil => exact iff_of_true hmem nofun
  | cons request later ih =>
      rw [Reading.registryCalls_cons] at hdistinct
      have hstep := (reading.handle_told request registry).mem_iff hdistinct.left hmem
      have hnext := hdistinct.drop
      rw [← (reading.handle_told request registry).registry_eq] at hnext
      show record ∈ (reading.serve (reading.handle request registry).registry later).records ↔ _
      by_cases hretires : reading.Retires record.id request (reading.handle request registry)
      · -- a record that is gone does not come back: its id is not given out again
        refine iff_of_false (fun hagain ↦ ?_) (fun h ↦ h (.inl hretires))
        rw [Reading.serve_eq] at hagain
        rcases List.mem_append.mp (hnext.sublist.subset hagain) with hstored | hregistered
        · exact hstep.mp hstored hretires
        · have hall := hdistinct.nodup
          rw [Registry.registered_append,
            ← (reading.handle_told request registry).registry_eq] at hall
          exact (List.nodup_append.mp hall).2.2 _ hmem _
            (List.mem_append_right _ hregistered) rfl
      · rw [ih hnext (hstep.mpr hretires)]
        exact not_congr (or_iff_right hretires).symm

/-- An answer that a program has been stored gives the id and the view of a stored record. -/
theorem Told.exists_of_created {view : ProgramView} (h : Told reading registry request told)
    (hdistinct : registry.Distinct (reading.registryCall? request).toList)
    (hreply : told.reply = .created id view) :
    ∃ record ∈ told.registry.records, record.id = id ∧ view = .ofProgram record.program := by
  cases h with
  | quiet _ hquiet =>
      have hnone := hquiet.createdId?
      rw [hreply] at hnone
      cases hnone
  | refused | missing | deleted => cases hreply
  | @created code program hcall hcompile =>
      rw [Reading.registryCall?_of_read hcall] at hdistinct
      have hresult : (registry.call (.register code)).1 = _ :=
        congrArg Prod.fst (Registry.call_register_of_ok hcompile)
      have hfresh := hdistinct.fresh (Registry.Result.stored?_eq_some_iff.mpr ⟨_, hresult⟩)
      have hmem := Registry.mem_of_registered hresult hfresh
      rw [Registry.call_register_of_ok hcompile] at hmem
      cases hreply
      exact ⟨_, hmem, rfl, rfl⟩

/-- Only an answer that a program has been stored or deleted comes with another registry. -/
theorem Told.registry_eq_or (h : Told reading registry request told) :
    told.registry = registry ∨
      told.reply.status = 201 ∧ (∃ code, reading.read request = .ok (.create code)) ∨
      told.reply.status = 204 ∧ ∃ id, reading.read request = .ok (.delete id) := by
  cases h with
  | quiet _ hquiet => exact .inl hquiet.registry_eq
  | refused | missing => exact .inl rfl
  | created hcall => exact .inr (.inl ⟨rfl, _, hcall⟩)
  | deleted hcall => exact .inr (.inr ⟨rfl, _, hcall⟩)

/-! ## Histories from an empty registry -/

section Empty

variable (hempty : start.records = [])
include hempty

/-- A history that gives out no id twice repeats no id. -/
theorem distinct_of_createdIds (hids : (reading.createdIds start history).Nodup) :
    start.Distinct (reading.registryCalls history) := by
  rwa [Registry.Distinct, hempty, List.nil_append, ← Reading.createdIds_eq]

/-- The records after a history are some of those that it has stored. -/
theorem sublist_serve (hdistinct : start.Distinct (reading.registryCalls history)) :
    (reading.serve start history).records.Sublist
      (start.registered (reading.registryCalls history)) := by
  have hsub := hdistinct.sublist
  rwa [hempty, List.nil_append, ← Reading.serve_eq] at hsub

/-- The ids of all records that a history stores differ. -/
theorem nodup_registered (hdistinct : start.Distinct (reading.registryCalls history)) :
    ((start.registered (reading.registryCalls history)).map Record.id).Nodup := by
  rwa [Registry.Distinct, hempty, List.nil_append] at hdistinct

/-- A record that is stored at some point of a history is found under its id at the end, unless an
answer has retired the id since. -/
theorem find?_serve (hdistinct : start.Distinct (reading.registryCalls (before ++ later)))
    (hmem : record ∈ (reading.serve start before).records) :
    (¬ reading.Retired record.id (reading.serve start before) later →
        (reading.serve start (before ++ later)).find? record.id = some record) ∧
      (reading.Retired record.id (reading.serve start before) later →
        (reading.serve start (before ++ later)).find? record.id = none) := by
  have hsub := sublist_serve hempty hdistinct
  have hids := nodup_registered hempty hdistinct
  have hstored : ((reading.serve start (before ++ later)).records.map Record.id).Nodup :=
    (hsub.map Record.id).nodup hids
  have hsplit := hdistinct
  rw [Reading.registryCalls_append] at hsplit
  have hlater := hsplit.drop
  rw [← Reading.serve_eq] at hlater
  have hiff := mem_serve_iff hlater hmem
  rw [← Reading.serve_append] at hiff
  constructor
  · intro hkept
    exact (Registry.find?_eq_some_iff hstored).mpr ⟨hiff.mpr hkept, rfl⟩
  · intro hretired
    by_contra hfind
    obtain ⟨other, hother⟩ := Option.ne_none_iff_exists'.mp hfind
    obtain ⟨hin, hid⟩ := (Registry.find?_eq_some_iff hstored).mp hother
    -- another record of the same id would have been given an id that was in use
    have hbefore : record ∈ start.registered (reading.registryCalls (before ++ later)) := by
      have hfirst := (sublist_serve hempty hsplit.left).subset hmem
      rw [Reading.registryCalls_append, Registry.registered_append]
      exact List.mem_append_left _ hfirst
    obtain rfl := List.inj_on_of_nodup_map hids (hsub.subset hin) hbefore hid
    exact hiff.mp hin hretired

/-- A program that has been stored is found under its id, unless an answer has retired it since. -/
theorem find?_of_created {creation : Request} {view : ProgramView}
    (hdistinct : start.Distinct (reading.registryCalls (before ++ creation :: later)))
    (hreply : (reading.handle creation (reading.serve start before)).reply = .created id view) :
    ∃ record, record.id = id ∧ view = .ofProgram record.program ∧
      (¬ reading.Retired id (reading.handle creation (reading.serve start before)).registry later →
        (reading.serve start (before ++ creation :: later)).find? id = some record) ∧
      (reading.Retired id (reading.handle creation (reading.serve start before)).registry later →
        (reading.serve start (before ++ creation :: later)).find? id = none) := by
  have hcreation := hdistinct
  rw [Reading.registryCalls_append, Reading.registryCalls_cons] at hcreation
  have hthere := hcreation.drop.left
  rw [← Reading.serve_eq] at hthere
  obtain ⟨record, hmem, rfl, hview⟩ :=
    (reading.handle_told creation (reading.serve start before)).exists_of_created hthere hreply
  have hsplit : before ++ creation :: later = before ++ [creation] ++ later := by simp
  have hstored : record ∈ (reading.serve start (before ++ [creation])).records := by
    rw [Reading.serve_append]
    exact hmem
  have hfind := find?_serve hempty (hsplit ▸ hdistinct) hstored
  rw [Reading.serve_append start before [creation]] at hfind
  rw [hsplit]
  exact ⟨record, rfl, hview, hfind⟩

end Empty

/-- What clients can see of stored programs after a history of requests. -/
structure Lifecycle (reading : Reading) (start : Registry) (history : List Request) : Prop where
  /-- A request leaves the registry as it was, or it stores or deletes a program and is answered
  so. -/
  unchanged : ∀ request,
    let told := reading.handle request (reading.serve start history)
    told.registry = reading.serve start history ∨
      told.reply.status = 201 ∧ (∃ code, reading.read request = .ok (.create code)) ∨
      told.reply.status = 204 ∧ ∃ id, reading.read request = .ok (.delete id)
  /-- Until its id is retired, a program is shown as it was when it was stored. -/
  shown : ∀ before creation later id view, history = before ++ creation :: later →
    let told := reading.handle creation (reading.serve start before)
    told.reply = .created id view → ¬ reading.Retired id told.registry later →
      ∀ request : Request, reading.read request = .ok (.fetch id) →
        (reading.handle request (reading.serve start history)).reply.status = 200 ∧
          (reading.handle request (reading.serve start history)).reply.body = told.reply.body
  /-- An id that has been retired is unknown from then on. -/
  retired : ∀ before creation later id view, history = before ++ creation :: later →
    let told := reading.handle creation (reading.serve start before)
    told.reply = .created id view → reading.Retired id told.registry later →
      reading.Unknown (reading.serve start history) id
  /-- An id that has not been given out is unknown. -/
  unknown : ∀ id, id ∉ reading.createdIds start history →
    reading.Unknown (reading.serve start history) id
  /-- Nothing is deleted twice. -/
  deleted_once : ∀ before deletion later id, history = before ++ deletion :: later →
    reading.read deletion = .ok (.delete id) →
      (reading.handle deletion (reading.serve start before)).reply.status = 204 →
        reading.Unknown (reading.serve start history) id

variable {capacity : Int} {supply : IdSupply}

/-- The life of every program that is stored in a history of requests from an empty registry, where
no id is given out twice: it is shown as it was created until it is deleted or evicted, and nothing
is known of it from then on. Nothing is known of other ids, nothing is deleted twice, and no other
request changes what is stored. It does not matter how the requests are read. -/
theorem serve_lifecycle (reading : Reading) (hstart : Registry.empty? capacity supply = some start)
    (history : List Request) (hids : (reading.createdIds start history).Nodup) :
    Lifecycle reading start history := by
  have hempty : start.records = [] := by
    unfold Registry.empty? at hstart
    split at hstart <;> cases hstart
    rfl
  have hdistinct := distinct_of_createdIds hempty hids
  constructor
  case unchanged => exact fun request ↦ (reading.handle_told request _).registry_eq_or
  case shown =>
    rintro before creation later id view rfl told hreply hkept request hcall
    obtain ⟨record, rfl, rfl, hfound, _⟩ := find?_of_created hempty hdistinct hreply
    rw [hreply, Reading.handle_of_read hcall]
    simp only [answer, hfound hkept]
    exact ⟨rfl, rfl⟩
  case retired =>
    rintro before creation later id view rfl told hreply hretired
    obtain ⟨_, _, _, _, hgone⟩ := find?_of_created hempty hdistinct hreply
    exact unknown_of_find? (hgone hretired)
  case unknown =>
    intro id hid
    refine unknown_of_find? (Registry.find?_eq_none_iff.mpr fun hstored ↦ hid ?_)
    rw [Reading.createdIds_eq]
    exact ((sublist_serve hempty hdistinct).map Record.id).subset hstored
  case deleted_once =>
    rintro before deletion later id rfl hcall hstatus
    cases hfind : (reading.serve start before).find? id with
    | none =>
      have hunknown := unknown_of_find? hfind deletion (.inr (.inr hcall))
      cases hunknown.symm.trans hstatus
    | some record =>
      have hmem : record ∈ (reading.serve start before).records := List.mem_of_find?_eq_some hfind
      obtain rfl : record.id = id := by simpa using List.find?_some hfind
      have hretired : reading.Retired record.id (reading.serve start before) (deletion :: later) :=
        .inl (.inl ⟨hcall, hstatus⟩)
      exact unknown_of_find? ((find?_serve hempty hdistinct hmem).2 hretired)

/-- A registry for one program, in which a second one takes the place of the first. -/
theorem serve_lifecycle_evicted :
    let creation : Request := ⟨"POST", "/api/programs",
      [0x7B, 0x22, 0x63, 0x6F, 0x64, 0x65, 0x22, 0x3A, 0x22, 0x2B, 0x22, 0x7D]⟩
    ∃ start, Registry.empty? 1 (.ofChosen #["a", "b"]) = some start ∧
      service.createdIds start [creation, creation] = ["a", "b"] ∧
      Lifecycle service start [creation, creation] ∧
      service.Retired "a" (service.handle creation start).registry [creation] ∧
      service.Unknown (service.serve start [creation, creation]) "a" := by
  intro creation
  let start : Registry := ⟨1, by decide, [], .ofChosen #["a", "b"]⟩
  have hstart : Registry.empty? 1 (.ofChosen #["a", "b"]) = some start := rfl
  have hids : service.createdIds start [creation, creation] = ["a", "b"] := by
    decide +kernel
  have hlifecycle : Lifecycle service start [creation, creation] :=
    serve_lifecycle service hstart _ (hids ▸ by decide)
  have hreply : (service.handle creation start).reply =
      .created "a" (.ofProgram #[.command (.add 1)]) := by
    decide +kernel
  have hretired : service.Retired "a" (service.handle creation start).registry [creation] := by
    refine .inl (.inr ?_)
    decide +kernel
  exact ⟨start, hstart, hids, hlifecycle, hretired,
    hlifecycle.retired [] creation [creation] "a" _ rfl hreply hretired⟩

end TapeMachine.Api
