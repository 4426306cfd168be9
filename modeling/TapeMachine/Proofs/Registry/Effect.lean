import TapeMachine.Registry.Call

/-!
# What the calls of a registry do

`Effect` lists what a call can do to the records of a registry, and `Distinct.effect` says that
every call does so where ids do not repeat. What a whole history does to the order of the records
and to their number follows from that: the records that are stored are some of those that have been
registered, in the order of registration, and never more than the capacity.
-/

namespace TapeMachine.Registry

/-- The record that a call stores, if it stores one. -/
def Result.stored? : Result → Option Record
  | .registered record _ => some record
  | _ => none

/-- The records that the registrations of a history store, in order. -/
def registered (registry : Registry) : List Call → List Record
  | [] => []
  | made :: later =>
      (registry.call made).1.stored?.toList ++ (registry.call made).2.registered later

/-- What a call does: the call, the record that it stores, if any, and the records afterwards. -/
inductive Effect (registry : Registry) : Call → Option Record → List Record → Prop where
  | stored (code : String) (record : Record)
      (hcompile : compile (Source.ofText code) = .ok record.program) :
      Effect registry (.register code) (some record)
        ((registry.records ++ [record]).drop (registry.records.length + 1 - registry.capacity))
  | refused (code : String) : Effect registry (.register code) none registry.records
  | found (id : String) : Effect registry (.find id) none registry.records
  | removed (id : String) :
      Effect registry (.remove id) none
        (registry.records.filter fun stored ↦ stored.id ≠ id)
  | cleared : Effect registry .clear none []

variable {registry : Registry} {record : Record} {made : Call} {history before later : List Call}

/-- A call stores a record when it is answered with it. -/
theorem Result.stored?_eq_some_iff {result : Result} :
    result.stored? = some record ↔ ∃ evicted, result = .registered record evicted := by
  cases result <;> simp [stored?, eq_comm]

/-- A registration of a source that compiles stores its program. -/
theorem call_register_of_ok {code : String} {program : Program}
    (h : compile (Source.ofText code) = .ok program) :
    registry.call (.register code) =
      (.registered (registry.store program).record (registry.store program).evicted,
        (registry.store program).registry) := by
  simp only [call, register, h]

/-- A registration of a source that is refused changes nothing. -/
theorem call_register_of_error {code : String} {fault : BracketFault}
    (h : compile (Source.ofText code) = .error fault) :
    registry.call (.register code) = (.refused fault, registry) := by
  simp only [call, register, h]

/-- The calls that store a record are registrations of the source of its program. -/
theorem exists_register_of_stored? (h : (registry.call made).1.stored? = some record) :
    ∃ code, made = .register code ∧ compile (Source.ofText code) = .ok record.program := by
  cases made with
  | register code =>
      rcases hcompile : compile (Source.ofText code) with fault | program
      · rw [call_register_of_error hcompile] at h
        cases h
      · rw [call_register_of_ok hcompile] at h
        cases h
        exact ⟨code, rfl, hcompile⟩
  | find id =>
      simp only [call] at h
      split at h <;> cases h
  | remove | clear => cases h

/-- A registration is accepted exactly when its source compiles. -/
theorem exists_registered_iff {code : String} :
    (∃ record evicted, (registry.call (.register code)).1 = .registered record evicted) ↔
      ∃ program, compile (Source.ofText code) = .ok program := by
  constructor
  · rintro ⟨record, evicted, h⟩
    obtain ⟨_, hmade, hcompile⟩ :=
      exists_register_of_stored? (Result.stored?_eq_some_iff.mpr ⟨evicted, h⟩)
    cases hmade
    exact ⟨_, hcompile⟩
  · rintro ⟨program, hcompile⟩
    exact ⟨_, _, congrArg Prod.fst (call_register_of_ok hcompile)⟩

/-- A record with a new id is put at the end. -/
theorem place_of_fresh {records : List Record} (h : record.id ∉ records.map Record.id) :
    place record records = records ++ [record] := by
  have hnone : ¬ (records.any fun stored ↦ stored.id = record.id) = true := by
    simpa using h
  rw [place, if_neg hnone]

/-- A record that is put among others leaves no other one with its id. -/
theorem mem_place {stored : Record} {records : List Record} (h : stored ∈ place record records) :
    stored = record ∨ stored ∈ records ∧ stored.id ≠ record.id := by
  by_cases hused : record.id ∈ records.map Record.id
  · have hany : (records.any fun other ↦ other.id = record.id) = true := by
      simpa using hused
    rw [place, if_pos hany] at h
    obtain ⟨other, hother, heq⟩ := List.mem_map.mp h
    split at heq
    case isTrue => exact .inl heq.symm
    case isFalse hne =>
      subst heq
      exact .inr ⟨hother, hne⟩
  · rw [place_of_fresh hused] at h
    obtain hold | hnew := List.mem_append.mp h
    · exact .inr ⟨hold, fun heq ↦ hused (heq ▸ List.mem_map_of_mem hold)⟩
    · exact .inl (List.mem_singleton.mp hnew)

/-- Under a new id a program is stored behind the others, and the oldest records that exceed the
capacity are evicted. -/
theorem store_of_fresh {program : Program}
    (h : (registry.store program).record.id ∉ registry.records.map Record.id) :
    let all := registry.records ++ [(registry.store program).record]
    let excess := registry.records.length + 1 - registry.capacity
    (registry.store program).evicted = all.take excess ∧
      (registry.store program).registry.records = all.drop excess := by
  simp only [store] at h ⊢
  rw [place_of_fresh h, List.length_append]
  exact ⟨rfl, rfl⟩

/-- Nothing is erased where nothing is found. -/
theorem erase_of_find?_eq_none {id : String} (h : registry.find? id = none) :
    registry.erase id = registry := by
  have hne : ∀ stored ∈ registry.records, stored.id ≠ id := by
    simpa [find?] using h
  have hrecords : (registry.records.filter fun stored ↦ stored.id ≠ id) = registry.records := by
    rw [List.filter_eq_self]
    simpa using hne
  rw [erase, hrecords]

/-- Every call has one of the effects where it gives no id that is in use. -/
theorem effect_of_fresh
    (hfresh : ∀ record ∈ (registry.call made).1.stored?,
      record.id ∉ registry.records.map Record.id) :
    Effect registry made (registry.call made).1.stored? (registry.call made).2.records := by
  cases made with
  | register code =>
      rcases hcompile : compile (Source.ofText code) with fault | program
      · rw [call_register_of_error hcompile]
        exact .refused code
      · rw [call_register_of_ok hcompile] at hfresh ⊢
        dsimp only
        rw [(store_of_fresh (hfresh _ rfl)).2]
        exact .stored code _ hcompile
  | find id =>
      simp only [call]
      split <;> exact .found id
  | remove id => exact .removed id
  | clear => exact .cleared

/-- A registration adds its record behind the others and evicts the oldest ones that exceed the
capacity. -/
theorem records_append_of_registered {evicted : List Record}
    (h : (registry.call made).1 = .registered record evicted)
    (hfresh : record.id ∉ registry.records.map Record.id) :
    registry.records ++ [record] = evicted ++ (registry.call made).2.records ∧
      evicted.length = registry.records.length + 1 - registry.capacity := by
  obtain ⟨code, rfl, hcompile⟩ :=
    exists_register_of_stored? (Result.stored?_eq_some_iff.mpr ⟨evicted, h⟩)
  rw [call_register_of_ok hcompile] at h ⊢
  obtain ⟨hrecord, rfl⟩ := Result.registered.inj h
  rw [← hrecord] at hfresh
  obtain ⟨hevicted, hrecords⟩ := store_of_fresh hfresh
  dsimp only
  rw [hevicted, hrecords, hrecord, List.take_append_drop, List.length_take, List.length_append,
    List.length_singleton]
  exact ⟨rfl, by omega⟩

/-- The record that a registration adds is not among those that are evicted for it. -/
theorem mem_of_registered {evicted : List Record}
    (h : (registry.call made).1 = .registered record evicted)
    (hfresh : record.id ∉ registry.records.map Record.id) :
    record ∈ (registry.call made).2.records := by
  obtain ⟨happend, hlength⟩ := records_append_of_registered h hfresh
  have hpos := registry.capacity_pos
  have hafter : (registry.call made).2.records =
      registry.records.drop evicted.length ++ [record] := by
    rw [← List.drop_append_of_le_length (by omega), happend, List.drop_left]
  rw [hafter]
  simp

namespace Effect

variable {stored? : Option Record} {records : List Record}

/-- A call stores nothing but its own record, and keeps the others in order. -/
theorem sublist (h : Effect registry made stored? records) :
    records.Sublist (registry.records ++ stored?.toList) := by
  cases h with
  | stored code record hcompile => exact List.drop_sublist _ _
  | refused | found => exact List.sublist_append_left _ _
  | removed id => exact List.filter_sublist.trans (List.sublist_append_left _ _)
  | cleared => exact List.nil_sublist _

/-- A call keeps the number of records within the capacity. -/
theorem length_le (h : Effect registry made stored? records)
    (hle : registry.records.length ≤ registry.capacity) :
    records.length ≤ registry.capacity := by
  cases h with
  | stored code record hcompile =>
      rw [List.length_drop, List.length_append, List.length_singleton]
      omega
  | refused | found => exact hle
  | removed id => exact Nat.le_trans (List.length_filter_le _ _) hle
  | cleared => exact Nat.zero_le _

end Effect

/-- The capacity never changes. -/
@[simp] theorem capacity_call (registry : Registry) (made : Call) :
    (registry.call made).2.capacity = registry.capacity := by
  cases made with
  | register code =>
      rcases hcompile : compile (Source.ofText code) with fault | program
      · rw [call_register_of_error hcompile]
      · rw [call_register_of_ok hcompile]
        rfl
  | find id =>
      simp only [call]
      split <;> rfl
  | remove | clear => rfl

/-! ## Histories -/

/-- A history made in two parts. -/
theorem afterAll_append (registry : Registry) (before later : List Call) :
    registry.afterAll (before ++ later) = (registry.afterAll before).afterAll later :=
  List.foldl_append

/-- A history that is cut behind one of its calls. -/
theorem afterAll_append_cons (registry : Registry) (before : List Call) (made : Call)
    (later : List Call) :
    registry.afterAll (before ++ made :: later) =
      ((registry.afterAll before).call made).2.afterAll later :=
  afterAll_append registry before (made :: later)

/-- The capacity is the same after a history. -/
@[simp] theorem capacity_afterAll (registry : Registry) (history : List Call) :
    (registry.afterAll history).capacity = registry.capacity := by
  induction history generalizing registry with
  | nil => rfl
  | cons made later ih => exact (ih _).trans (capacity_call registry made)

/-- What is registered in a history made in two parts. -/
theorem registered_append (registry : Registry) (before later : List Call) :
    registry.registered (before ++ later) =
      registry.registered before ++ (registry.afterAll before).registered later := by
  induction before generalizing registry with
  | nil => rfl
  | cons made before ih =>
      rw [List.cons_append, registered, registered, ih, List.append_assoc]
      rfl

/-- What is registered was stored by some call of the history. -/
theorem mem_registered_iff :
    record ∈ registry.registered history ↔
      ∃ before made later, history = before ++ made :: later ∧
        ((registry.afterAll before).call made).1.stored? = some record := by
  induction history generalizing registry with
  | nil => simp [registered]
  | cons made history ih =>
      rw [registered, List.mem_append, Option.mem_toList, ih]
      constructor
      · rintro (h | ⟨before, next, later, rfl, h⟩)
        · exact ⟨[], made, history, rfl, h⟩
        · exact ⟨made :: before, next, later, rfl, h⟩
      · rintro ⟨_ | ⟨first, before⟩, next, later, hhistory, h⟩
        · obtain ⟨rfl, rfl⟩ := List.cons.inj hhistory
          exact .inl h
        · obtain ⟨rfl, rfl⟩ := List.cons.inj hhistory
          exact .inr ⟨before, next, later, rfl, h⟩

/-- Records whose ids differ are different records. -/
theorem nodup_of_ids {records : List Record} (h : (records.map Record.id).Nodup) :
    records.Nodup :=
  List.Pairwise.of_map Record.id (fun _ _ hne heq ↦ hne (congrArg Record.id heq)) h

/-- No id occurs twice among the records that are stored and those that the history stores. -/
def Distinct (registry : Registry) (history : List Call) : Prop :=
  ((registry.records ++ registry.registered history).map Record.id).Nodup

namespace Distinct

/-- In a history without repeated ids, the first record that is stored has a new id. -/
theorem fresh (h : registry.Distinct (made :: later))
    (hstored : (registry.call made).1.stored? = some record) :
    record.id ∉ registry.records.map Record.id := by
  intro hused
  rw [Distinct, registered, hstored, List.map_append, List.nodup_append] at h
  exact h.2.2 _ hused record.id (by simp) rfl

/-- The first call of a history without repeated ids has one of the effects. -/
theorem effect (h : registry.Distinct (made :: later)) :
    Effect registry made (registry.call made).1.stored? (registry.call made).2.records :=
  effect_of_fresh fun _ hstored ↦ h.fresh hstored

/-- After its first call, a history still repeats no id. -/
theorem tail (h : registry.Distinct (made :: later)) :
    (registry.call made).2.Distinct later := by
  have hsub := h.effect.sublist.append_right ((registry.call made).2.registered later)
  rw [List.append_assoc] at hsub
  exact (hsub.map Record.id).nodup h

/-- After a part of it, a history still repeats no id. -/
theorem drop (h : registry.Distinct (before ++ later)) :
    (registry.afterAll before).Distinct later := by
  induction before generalizing registry with
  | nil => exact h
  | cons made before ih => exact ih h.tail

/-- The first part of a history repeats no id either. -/
theorem left (h : registry.Distinct (before ++ later)) : registry.Distinct before := by
  rw [Distinct, registered_append, ← List.append_assoc] at h
  exact ((List.sublist_append_left _ _).map Record.id).nodup h

/-- A history without repeated ids stores every record once. -/
theorem nodup (h : registry.Distinct history) :
    (registry.records ++ registry.registered history).Nodup :=
  nodup_of_ids h

/-- The records after a history are in the order of their registration. -/
theorem sublist (h : registry.Distinct history) :
    (registry.afterAll history).records.Sublist
      (registry.records ++ registry.registered history) := by
  induction history generalizing registry with
  | nil => exact List.sublist_append_left _ _
  | cons made later ih =>
      have hnext := h.effect.sublist.append_right ((registry.call made).2.registered later)
      rw [List.append_assoc] at hnext
      exact (ih h.tail).trans hnext

/-- A history keeps the number of records within the capacity. -/
theorem length_le (h : registry.Distinct history)
    (hle : registry.records.length ≤ registry.capacity) :
    (registry.afterAll history).records.length ≤ registry.capacity := by
  induction history generalizing registry with
  | nil => exact hle
  | cons made later ih =>
      have hnext := ih h.tail
      rw [capacity_call] at hnext
      exact hnext (h.effect.length_le hle)

end Distinct

end TapeMachine.Registry
