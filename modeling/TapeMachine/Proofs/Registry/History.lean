import Mathlib.Data.List.Nodup
import TapeMachine.Proofs.Registry.Effect
import TapeMachine.Proofs.RoundTrip

/-!
# A registry is a queue of bounded length

The main theorem, `afterAll_fifo`, says what a registry holds after any history of calls from an
empty registry, where no id is given out twice. A record that has been stored stays until it is
removed, or cleared with all others, or until a registration finds too many records that are no
older: removing younger records makes room and lets it stay longer. `Spares` says this of one call,
`mem_call_iff` proves it, and `mem_afterAll_iff` carries it over to histories, with the records that
have been registered since as the invariant.
-/

namespace TapeMachine

/-- The elements of a list without repetitions that occur in a part of it are this part. -/
theorem filter_mem_of_sublist {α : Type} [DecidableEq α] {part whole : List α}
    (h : part.Sublist whole) (hnodup : whole.Nodup) : whole.filter (· ∈ part) = part := by
  induction h with
  | slnil => rfl
  | cons a h ih =>
      obtain ⟨hnot, hrest⟩ := List.nodup_cons.mp hnodup
      have hpart : a ∉ _ := fun hmem ↦ hnot (h.subset hmem)
      rw [List.filter_cons_of_neg (by simpa using hpart), ih hrest]
  | cons_cons a h ih =>
      obtain ⟨hnot, hrest⟩ := List.nodup_cons.mp hnodup
      rw [List.filter_cons_of_pos (by simp)]
      -- behind `a` there is no other `a`, so that belonging to `a :: part` is belonging to `part`
      refine congrArg (a :: ·) (Eq.trans (List.filter_congr fun b hb ↦ ?_) (ih hrest))
      have hne : b ≠ a := fun heq ↦ hnot (heq ▸ hb)
      simp [hne]

/-- An element is behind the first `count` ones of a list without repetitions when no fewer are in
front of it. -/
theorem mem_drop_iff {α : Type} {front back : List α} {a : α} {count : Nat}
    (hnodup : (front ++ a :: back).Nodup) :
    a ∈ (front ++ a :: back).drop count ↔ count ≤ front.length := by
  obtain ⟨_, hback, hdisjoint⟩ := List.nodup_append.mp hnodup
  constructor
  · intro h
    by_contra hlt
    -- dropping more than the front takes the element away, and it does not occur behind itself
    have hdrop : (front ++ a :: back).drop count = back.drop (count - (front.length + 1)) := by
      have hcount : count - front.length = count - (front.length + 1) + 1 := by omega
      rw [List.drop_append, List.drop_eq_nil_of_le (by omega), List.nil_append, hcount,
        List.drop_succ_cons]
    rw [hdrop] at h
    exact (List.nodup_cons.mp hback).1 (List.mem_of_mem_drop h)
  · intro h
    rw [List.drop_append_of_le_length h]
    simp

/-- A program that has been compiled is well formed, its normal form is its spelling, and it is
compiled from its normal form again. -/
theorem Record.comesBack {code : String} {record : Record}
    (h : compile (Source.ofText code) = .ok record.program) :
    record.program.WellFormed ∧
      (∃ ops, record.program.code.spell = .ok ops ∧ record.normalized = Operator.toText ops) ∧
      compile (Source.ofText record.normalized) = .ok record.program := by
  have hspell : record.program.code.spell = .ok record.program.spell :=
    Code.spell_eq_ok_iff.mpr ⟨_, rfl, rfl⟩
  exact ⟨wellFormed_of_compile h, ⟨_, hspell, rfl⟩, compile_spell_of_compile h⟩

namespace Registry

variable {registry : Registry} {record : Record} {made : Call} {older since : List Record}
  {history before later : List Call}

/-- The call leaves the record in its place, where `since` has been registered from the record on:
it does not clear the registry or remove the record, and where it stores another one, the records
stored then that are no older than this one and the new one are within the capacity together. -/
def Spares (registry : Registry) (record : Record) (since : List Record) (made : Call) : Prop :=
  made ≠ .clear ∧ made ≠ .remove record.id ∧
    ∀ newer evicted, (registry.call made).1 = .registered newer evicted →
      since.countP (· ∈ registry.records) + 1 ≤ registry.capacity

/-- What it takes to spare a record, by what the call stores. -/
theorem spares_iff {stored? : Option Record}
    (hstored : (registry.call made).1.stored? = stored?) :
    registry.Spares record since made ↔ made ≠ .clear ∧ made ≠ .remove record.id ∧
      (stored?.isSome → since.countP (· ∈ registry.records) + 1 ≤ registry.capacity) := by
  subst hstored
  refine and_congr_right' (and_congr_right' ?_)
  rcases (registry.call made).1 <;> simp [Result.stored?]

/-- Of the records that are stored, those no older than this one are all behind the older ones, and
they are counted by going through what has been registered since. -/
theorem exists_eq_append_of_mem (hmem : record ∈ registry.records)
    (hsub : registry.records.Sublist (older ++ record :: since))
    (hnodup : (older ++ record :: since).Nodup) :
    ∃ front back, registry.records = front ++ record :: back ∧
      (record :: since).countP (· ∈ registry.records) = back.length + 1 := by
  obtain ⟨front, rest, hrecords, hfront, hrest⟩ := List.sublist_append_iff.mp hsub
  obtain ⟨_, hsince, hdisjoint⟩ := List.nodup_append.mp hnodup
  have hnotFront : record ∉ front := fun h ↦ hdisjoint _ (hfront.subset h) _ (by simp) rfl
  have hinRest : record ∈ rest := by simpa [hrecords, hnotFront] using hmem
  -- what is in front of the record has not been registered since, so only `rest` is counted
  have hfilter : (record :: since).filter (· ∈ registry.records) = rest := by
    refine (List.filter_congr fun later hlater ↦ ?_).trans (filter_mem_of_sublist hrest hsince)
    have hnot : later ∉ front := fun h ↦ hdisjoint _ (hfront.subset h) _ hlater rfl
    simp [hrecords, hnot]
  cases hrest with
  | cons _ h => exact absurd (h.subset hinRest) (List.nodup_cons.mp hsince).1
  | cons_cons _ h =>
      refine ⟨front, _, hrecords, ?_⟩
      rw [List.countP_eq_length_filter, hfilter, List.length_cons]

/-- A stored record is stored after a call exactly when the call spares it. -/
theorem mem_call_iff (hmem : record ∈ registry.records)
    (hsub : registry.records.Sublist (older ++ record :: since))
    (hnodup : (older ++ record :: since).Nodup) (hdistinct : registry.Distinct [made]) :
    record ∈ (registry.call made).2.records ↔ registry.Spares record (record :: since) made := by
  have heffect := hdistinct.effect
  have honce := hdistinct.nodup
  simp only [registered, List.append_nil] at honce
  generalize hstored : (registry.call made).1.stored? = stored? at heffect honce
  rw [spares_iff hstored]
  generalize (registry.call made).2.records = records at heffect ⊢
  cases heffect with
  | stored code newer hcompile =>
      obtain ⟨front, back, hrecords, hcount⟩ := exists_eq_append_of_mem hmem hsub hnodup
      have happend : registry.records ++ [newer] = front ++ record :: (back ++ [newer]) := by
        rw [hrecords, List.append_assoc, List.cons_append]
      have hlength : registry.records.length = front.length + (back.length + 1) := by
        rw [hrecords, List.length_append, List.length_cons]
      rw [Option.toList_some, happend] at honce
      rw [hcount, happend, mem_drop_iff honce]
      -- the new record counts against this one too, the older ones do not
      simp only [ne_eq, reduceCtorEq, not_false_eq_true, Option.isSome_some, forall_const, true_and]
      omega
  | refused | found => simpa using hmem
  | removed id =>
      have hne : id ≠ record.id ↔ record.id ≠ id := ne_comm
      simp [hmem, hne]
  | cleared => simp

/-- What holds at every call of a history holds at the first one and at every later one. -/
theorem forall_split_cons {P : List Call → Call → Prop} :
    (∀ mid next rest, made :: later = mid ++ next :: rest → P mid next) ↔
      P [] made ∧ ∀ mid next rest, later = mid ++ next :: rest → P (made :: mid) next := by
  constructor
  · intro h
    exact ⟨h [] made later rfl, fun mid next rest hlater ↦
      h (made :: mid) next rest (congrArg (made :: ·) hlater)⟩
  · rintro ⟨hfirst, hrest⟩ (_ | ⟨first, mid⟩) next rest hsplit
    · obtain ⟨rfl, rfl⟩ := List.cons.inj hsplit
      exact hfirst
    · obtain ⟨rfl, hlater⟩ := List.cons.inj hsplit
      exact hrest mid next rest hlater

/-- A stored record is stored after a history exactly when every call of the history spares it. -/
theorem mem_afterAll_iff (hmem : record ∈ registry.records)
    (hsub : registry.records.Sublist (older ++ record :: since))
    (hids : ((older ++ record :: since ++ registry.registered later).map Record.id).Nodup) :
    record ∈ (registry.afterAll later).records ↔
      ∀ mid next rest, later = mid ++ next :: rest →
        (registry.afterAll mid).Spares record (record :: since ++ registry.registered mid)
          next := by
  -- the invariant of the induction: what the registry holds is in order, and `since` grows by what
  -- the calls store
  induction later generalizing registry since with
  | nil => simpa [afterAll] using hmem
  | cons made later ih =>
      have hdistinct : registry.Distinct (made :: later) :=
        ((hsub.append_right _).map Record.id).nodup hids
      have hfirst : registry.Distinct [made] := Distinct.left hdistinct
      have hall := nodup_of_ids hids
      have hstep := mem_call_iff hmem hsub (List.nodup_append.mp hall).1 hfirst
      rw [forall_split_cons]
      change record ∈ ((registry.call made).2.afterAll later).records ↔ _
      by_cases hspares : registry.Spares record (record :: since) made
      · have hsub' : (registry.call made).2.records.Sublist
            (older ++ record :: (since ++ (registry.call made).1.stored?.toList)) := by
          simpa using hdistinct.effect.sublist.trans (hsub.append_right _)
        rw [ih (hstep.mpr hspares) hsub' (by simpa [registered] using hids)]
        simp [registered, afterAll, hspares]
      · -- a record that is gone does not come back: its id is not given out again
        have hgone : record ∉ ((registry.call made).2.afterAll later).records := by
          intro h
          rcases List.mem_append.mp (hdistinct.tail.sublist.subset h) with h | h
          · exact hspares (hstep.mp h)
          · have hagain : record ∈ registry.registered (made :: later) :=
              List.mem_append_right _ h
            exact (List.nodup_append.mp hall).2.2 record (by simp) record hagain rfl
        refine iff_of_false hgone fun h ↦ hspares ?_
        simpa [registered, afterAll] using h.1

/-! ## Looking up -/

/-- With ids that differ, the record that is found is the one with the id. -/
theorem find?_eq_some_iff (hids : (registry.records.map Record.id).Nodup) {id : String} :
    registry.find? id = some record ↔ record ∈ registry.records ∧ record.id = id := by
  constructor
  · intro h
    exact ⟨List.mem_of_find?_eq_some h, by simpa using List.find?_some h⟩
  · rintro ⟨hmem, rfl⟩
    have hsome : (registry.find? record.id).isSome := by
      rw [find?, List.find?_isSome]
      exact ⟨record, hmem, by simp⟩
    obtain ⟨other, hother⟩ := Option.isSome_iff_exists.mp hsome
    have hid : other.id = record.id := by simpa using List.find?_some hother
    rw [hother, List.inj_on_of_nodup_map hids (List.mem_of_find?_eq_some hother) hmem hid]

/-- Nothing is found under an id that no record has. -/
theorem find?_eq_none_iff {id : String} :
    registry.find? id = none ↔ id ∉ registry.records.map Record.id := by
  simp [find?]

/-! ## Histories from an empty registry -/

/-- A registration of the history stores the record, and every later call spares it. -/
def Keeps (start : Registry) (history : List Call) (record : Record) : Prop :=
  ∃ before code evicted later, history = before ++ .register code :: later ∧
    ((start.afterAll before).call (.register code)).1 = .registered record evicted ∧
    ∀ mid next rest, later = mid ++ next :: rest →
      (start.afterAll (before ++ .register code :: mid)).Spares record
        ((start.afterAll before).registered (.register code :: mid)) next

/-- What can be said of a registry of some capacity after a history from an empty one: what it
holds, what the registrations of the history did, what the next calls are answered, and what the
records look like. -/
structure Fifo (start : Registry) (capacity : Int) (history : List Call) : Prop where
  capacity_eq : ((start.afterAll history).capacity : Int) = capacity
  /-- The records are held in the order of registration. -/
  in_order : (start.afterAll history).records.Sublist (start.registered history)
  length_le : ((start.afterAll history).records.length : Int) ≤ capacity
  /-- A record is held exactly when it has been registered and every later call spares it. -/
  mem_iff : ∀ record, record ∈ (start.afterAll history).records ↔ start.Keeps history record
  accepted_iff : ∀ before code later, history = before ++ .register code :: later →
    ((∃ record evicted,
        ((start.afterAll before).call (.register code)).1 = .registered record evicted) ↔
      ∃ program, compile (Source.ofText code) = .ok program)
  /-- A registration evicts the oldest record or none, never its own, and reports what it evicts. -/
  evicts : ∀ before code later record evicted, history = before ++ .register code :: later →
    ((start.afterAll before).call (.register code)).1 = .registered record evicted →
      let after := start.afterAll (before ++ [.register code])
      (start.afterAll before).records ++ [record] = evicted ++ after.records ∧
        evicted.length ≤ 1 ∧ record ∈ after.records ∧
        (Call.register code).entries (.registered record evicted) =
          .compiled (Source.ofText code).length record.program.size ::
            evicted.map fun old ↦ .evicted old.id
  /-- What is found under an id is the record that the registration returned for the id. -/
  find_eq_found_iff : ∀ record ∈ start.registered history,
    (start.afterAll history).call (.find record.id) = (.found record, start.afterAll history) ↔
      record.id ∈ (start.afterAll history).records.map Record.id
  find_eq_unknown_iff : ∀ id,
    (start.afterAll history).call (.find id) = (.unknown id, start.afterAll history) ↔
      id ∉ (start.afterAll history).records.map Record.id
  remove_eq : ∀ id, ((start.afterAll history).call (.remove id)).1 =
    .removed (id ∈ (start.afterAll history).records.map Record.id)
  /-- A record that is held is found under its own id, and its normal form is its program again. -/
  comesBack : ∀ record ∈ (start.afterAll history).records,
    (start.afterAll history).find? record.id = some record ∧ record.program.WellFormed ∧
      (∃ ops, record.program.code.spell = .ok ops ∧ record.normalized = Operator.toText ops) ∧
      compile (Source.ofText record.normalized) = .ok record.program

variable {start : Registry} {capacity : Int} {supply : IdSupply} {evicted : List Record}

/-- A record that has been registered is stored exactly when every later call spares it. -/
theorem mem_afterAll_append_iff (hempty : start.records = [])
    (hdistinct : start.Distinct (before ++ made :: later))
    (hregistered : ((start.afterAll before).call made).1 = .registered record evicted) :
    record ∈ (start.afterAll (before ++ made :: later)).records ↔
      ∀ mid next rest, later = mid ++ next :: rest →
        (start.afterAll (before ++ made :: mid)).Spares record
          ((start.afterAll before).registered (made :: mid)) next := by
  have hstored : ((start.afterAll before).call made).1.stored? = some record := by
    rw [hregistered]
    rfl
  have hmem := mem_of_registered hregistered (hdistinct.drop.fresh hstored)
  have hregisteredAll : start.registered (before ++ made :: later) =
      start.registered before ++
        record :: ((start.afterAll before).call made).2.registered later := by
    rw [registered_append, registered, hstored]
    rfl
  have hsub : ((start.afterAll before).call made).2.records.Sublist
      (start.registered before ++ [record]) := by
    have hcut : start.Distinct (before ++ [made] ++ later) := by
      simpa using hdistinct
    have hfirst : start.Distinct (before ++ [made]) := hcut.left
    have hsublist := hfirst.sublist
    rw [afterAll_append_cons, registered_append, registered, hstored, hempty] at hsublist
    exact hsublist
  have hids : ((start.registered before ++ [record] ++
      ((start.afterAll before).call made).2.registered later).map Record.id).Nodup := by
    rw [Distinct, hregisteredAll, hempty] at hdistinct
    simpa using hdistinct
  rw [afterAll_append_cons, mem_afterAll_iff hmem hsub hids]
  simp only [afterAll_append_cons, registered, hstored]
  rfl

/-- A record is stored after a history exactly when the history keeps it. -/
theorem mem_afterAll_iff_keeps (hempty : start.records = []) (hdistinct : start.Distinct history) :
    record ∈ (start.afterAll history).records ↔ start.Keeps history record := by
  constructor
  · intro h
    have hregistered : record ∈ start.registered history := by
      simpa [hempty] using hdistinct.sublist.subset h
    obtain ⟨before, made, later, rfl, hstored⟩ := mem_registered_iff.mp hregistered
    obtain ⟨evicted, hresult⟩ := Result.stored?_eq_some_iff.mp hstored
    obtain ⟨code, rfl, _⟩ := exists_register_of_stored? hstored
    exact ⟨before, code, evicted, later, rfl, hresult,
      (mem_afterAll_append_iff hempty hdistinct hresult).mp h⟩
  · rintro ⟨before, code, evicted, later, rfl, hresult, hspares⟩
    exact (mem_afterAll_append_iff hempty hdistinct hresult).mpr hspares

/-- A record is removed where one is stored under the id. -/
theorem call_remove_eq (registry : Registry) (id : String) :
    (registry.call (.remove id)).1 = .removed (id ∈ registry.records.map Record.id) := by
  have hnone : registry.find? id = none ↔ id ∉ registry.records.map Record.id :=
    find?_eq_none_iff
  simp only [call]
  rcases hfind : registry.find? id with _ | record
  · simp [hnone.mp hfind]
  · have hmem : id ∈ registry.records.map Record.id := by
      by_contra h
      cases hfind.symm.trans (hnone.mpr h)
    simp [hmem]

/-- Nothing is found where no record has the id. -/
theorem call_find_eq_unknown_iff {id : String} :
    registry.call (.find id) = (.unknown id, registry) ↔
      id ∉ registry.records.map Record.id := by
  rw [← find?_eq_none_iff]
  simp only [call]
  cases registry.find? id <;> simp

/-- With ids that differ, the record that has the id is found where it is stored. -/
theorem call_find_eq_found_iff (hids : (registry.records.map Record.id).Nodup)
    (hmem : ∀ other ∈ registry.records, other.id = record.id → other = record) :
    registry.call (.find record.id) = (.found record, registry) ↔
      record.id ∈ registry.records.map Record.id := by
  simp only [call]
  rcases hfind : registry.find? record.id with _ | other
  · simpa using find?_eq_none_iff.mp hfind
  · obtain ⟨hother, hid⟩ := (find?_eq_some_iff hids).mp hfind
    simp only [hmem other hother hid, true_iff]
    exact List.mem_map.mpr ⟨other, hother, hid⟩

/-- What a registry holds after any history of calls from an empty one, where no id is given out
twice. -/
theorem afterAll_fifo (hstart : empty? capacity supply = some start) (history : List Call)
    (hids : ((start.registered history).map Record.id).Nodup) : start.Fifo capacity history := by
  obtain ⟨hempty, hcapacity⟩ : start.records = [] ∧ (start.capacity : Int) = capacity := by
    unfold empty? at hstart
    split at hstart <;> cases hstart
    exact ⟨rfl, Int.toNat_of_nonneg (by omega)⟩
  have hdistinct : start.Distinct history := by
    rwa [Distinct, hempty]
  have hsub : (start.afterAll history).records.Sublist (start.registered history) := by
    simpa [hempty] using hdistinct.sublist
  have hstored : ((start.afterAll history).records.map Record.id).Nodup :=
    (hsub.map Record.id).nodup hids
  constructor
  case capacity_eq => rw [capacity_afterAll, hcapacity]
  case in_order => exact hsub
  case length_le =>
    have hle := hdistinct.length_le (by simp [hempty])
    omega
  case mem_iff => exact fun record ↦ mem_afterAll_iff_keeps hempty hdistinct
  case accepted_iff => exact fun before code later _ ↦ exists_registered_iff
  case evicts =>
    rintro before code later record evicted rfl hresult after
    have hthere := hdistinct.drop
    have hfresh := hthere.fresh (Result.stored?_eq_some_iff.mpr ⟨evicted, hresult⟩)
    obtain ⟨happend, hlength⟩ := records_append_of_registered hresult hfresh
    have hfull := hdistinct.left.length_le (by simp [hempty])
    rw [capacity_afterAll] at hlength
    have hafter : after = ((start.afterAll before).call (.register code)).2 :=
      afterAll_append_cons start before _ []
    rw [hafter]
    exact ⟨happend, by omega, mem_of_registered hresult hfresh, rfl⟩
  case find_eq_found_iff =>
    intro record hrecord
    refine call_find_eq_found_iff hstored fun other hother hid ↦ ?_
    exact List.inj_on_of_nodup_map hids (hsub.subset hother) hrecord hid
  case find_eq_unknown_iff => exact fun id ↦ call_find_eq_unknown_iff
  case remove_eq => exact call_remove_eq _
  case comesBack =>
    intro record hrecord
    obtain ⟨before, made, later, rfl, hsome⟩ := mem_registered_iff.mp (hsub.subset hrecord)
    obtain ⟨code, rfl, hcompile⟩ := exists_register_of_stored? hsome
    exact ⟨(find?_eq_some_iff hstored).mpr ⟨hrecord, rfl⟩, Record.comesBack hcompile⟩

/-- A registry for one program, which registers two and is then asked for the first. -/
theorem afterAll_fifo_evicted :
    ∃ start, empty? 1 (.ofChosen #["a", "b"]) = some start ∧
      start.Fifo 1 [.register "+", .register "-", .find "a"] := by
  have hids : ((registered ⟨1, by decide, [], .ofChosen #["a", "b"]⟩
      [.register "+", .register "-", .find "a"]).map Record.id).Nodup := by
    decide +kernel
  exact ⟨_, rfl, afterAll_fifo rfl _ hids⟩

end Registry

end TapeMachine
