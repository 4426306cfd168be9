import TapeMachine.Proofs.Machine.Runs

/-!
# Machines in lockstep

Two machines that run the same code keep step with each other where their stores answer every
command alike. `Store.Lockstep` is what this asks of a relation between stores, and
`Machine.Alongside.execute` says what comes of it: executions with the same limit and the same fuel
have the same outcome, and leave machines that still stand side by side.

Devices that answer every call alike make such stores, `Device.Lockstep.store`.
-/

namespace TapeMachine

variable {σ τ ε : Type} [Device σ ε] [Device τ ε]

/-- Devices that stand in the relation answer every call alike and then stand in it again. -/
structure Device.Lockstep (R : σ → τ → Prop) : Prop where
  read {device : σ} {other : τ} (h : R device other) :
    ∃ result after after', Device.read device = (result, after) ∧
      Device.read other = (result, after') ∧ R after after'
  write (value : UInt8) {device : σ} {other : τ} (h : R device other) :
    ∃ result after after', Device.write value device = (result, after) ∧
      Device.write value other = (result, after') ∧ R after after'

/-- Stores that stand in the relation answer every command and every test alike, and after a
command they stand in it again. -/
structure Store.Lockstep (R : Store σ → Store τ → Prop) : Prop where
  perform (c : Command) {store : Store σ} {other : Store τ} (h : R store other) :
    ∃ result after after', store.perform c = (result, after) ∧
      other.perform c = (result, after') ∧ R after after'
  current {store : Store σ} {other : Store τ} (h : R store other) :
    (store.current : Except (Fault ε) UInt8) = other.current

/-- The stores have the same tape and the same head, and their devices stand in the relation. -/
inductive Store.Alike (R : σ → τ → Prop) : Store σ → Store τ → Prop where
  | mk (tape : Tape) (pointer : Int) {device : σ} {other : τ} (h : R device other) :
      Store.Alike R ⟨tape, pointer, device⟩ ⟨tape, pointer, other⟩

/-- The devices answer alike the call that the command makes, if it makes one. -/
def Command.CalledAlike (R : σ → τ → Prop) (c : Command) (device : σ) (other : τ) : Prop :=
  match c with
  | read => ∃ result after after', Device.read device = (result, after) ∧
      Device.read other = (result, after') ∧ R after after'
  | write => ∀ value, ∃ result after after', Device.write value device = (result, after) ∧
      Device.write value other = (result, after') ∧ R after after'
  | add _ | move _ => True

/-- Stores that differ in their devices only perform a command alike if the devices answer its call
alike. -/
theorem Store.Alike.perform {R : σ → τ → Prop} {store : Store σ} {other : Store τ}
    (h : Store.Alike R store other) {c : Command}
    (hcall : c.CalledAlike R store.device other.device) :
    ∃ result after after', store.perform c = (result, after) ∧ other.perform c = (result, after') ∧
      Store.Alike R after after' := by
  obtain ⟨tape, pointer, h⟩ := h
  cases c with
  | add delta =>
      simp only [Store.perform]
      split <;> exact ⟨_, _, _, rfl, rfl, .mk _ _ h⟩
  | move delta => exact ⟨_, _, _, rfl, rfl, .mk _ _ h⟩
  | write =>
      simp only [Store.perform]
      split
      · exact ⟨_, _, _, rfl, rfl, .mk _ _ h⟩
      · rename_i cell _
        obtain ⟨_ | _, _, _, hwrite, hother, hafter⟩ := hcall (tape.get cell) <;>
          simp only [hwrite, hother] <;> exact ⟨_, _, _, rfl, rfl, .mk _ _ hafter⟩
  | read =>
      simp only [Store.perform]
      obtain ⟨_ | _, _, _, hread, hother, hafter⟩ := hcall <;> simp only [hread, hother]
      · exact ⟨_, _, _, rfl, rfl, .mk _ _ hafter⟩
      · split <;> exact ⟨_, _, _, rfl, rfl, .mk _ _ hafter⟩

omit [Device σ ε] [Device τ ε] in
/-- Stores that differ in their devices only have the same value under the head. -/
theorem Store.Alike.current_eq {R : σ → τ → Prop} {store : Store σ} {other : Store τ}
    (h : Store.Alike R store other) :
    (store.current : Except (Fault ε) UInt8) = other.current := by
  obtain ⟨tape, pointer, _⟩ := h
  simp only [Store.current]
  cases resolveIndex tape.size pointer <;> rfl

/-- With devices in lockstep, stores that are otherwise the same are in lockstep too. -/
theorem Device.Lockstep.store {R : σ → τ → Prop} (hR : Device.Lockstep R) :
    Store.Lockstep (Store.Alike R) := by
  constructor
  · intro c store other h
    refine h.perform ?_
    obtain ⟨tape, pointer, h⟩ := h
    cases c with
    | add | move => trivial
    | write => exact fun value ↦ hR.write value h
    | read => exact hR.read h
  · intro store other h
    exact h.current_eq

variable {R : Store σ → Store τ → Prop}

/-- Stores obey an instruction alike if they perform its command alike, or test alike where it is
none. -/
theorem Store.obey_alike {store : Store σ} {other : Store τ} {instruction : Instruction}
    (hcommand : ∀ c, instruction = .command c → ∃ result after after',
      store.perform c = (result, after) ∧ other.perform c = (result, after') ∧ R after after')
    (hloop : (∀ c, instruction ≠ .command c) →
      (store.current : Except (Fault ε) UInt8) = other.current ∧ R store other) (index : Int) :
    ∃ result after after', store.obey index instruction = (result, after) ∧
      other.obey index instruction = (result, after') ∧ R after after' := by
  cases instruction with
  | command c =>
      obtain ⟨_ | _, _, _, hperform, hother, hafter⟩ := hcommand c rfl <;>
        simp only [Store.obey, hperform, hother] <;> exact ⟨_, _, _, rfl, rfl, hafter⟩
  | loopStart | loopEnd =>
      obtain ⟨hcurrent, h⟩ := hloop nofun
      simp only [Store.obey, hcurrent]
      split <;> exact ⟨_, _, _, rfl, rfl, h⟩

/-- Stores in lockstep obey every instruction alike. -/
theorem Store.Lockstep.obey (hR : Store.Lockstep R) {store : Store σ} {other : Store τ}
    (h : R store other) (index : Int) (instruction : Instruction) :
    ∃ result after after', store.obey index instruction = (result, after) ∧
      other.obey index instruction = (result, after') ∧ R after after' :=
  Store.obey_alike (fun c _ ↦ hR.perform c h) (fun _ ↦ ⟨hR.current h, h⟩) index

namespace Machine

/-- The machines stand at the same instruction after the same number of steps, and their stores
stand in the relation. -/
inductive Alongside (R : Store σ → Store τ → Prop) : Machine σ → Machine τ → Prop where
  | mk (index steps : Int) {store : Store σ} {other : Store τ} (h : R store other) :
      Alongside R ⟨store, index, steps⟩ ⟨other, index, steps⟩

variable {machine : Machine σ} {other : Machine τ}

/-- Machines at the same instruction execute it alike if their stores obey it alike. -/
theorem next_alike {store : Store σ} {store' : Store τ} {code : Code} {index : Int} (steps : Int)
    (hfetch : ∀ kind, code.fetch index = .error kind → R store store')
    (hobey : ∀ instruction, code.fetch index = .ok instruction → ∃ result after after',
      store.obey index instruction = (result, after) ∧
      store'.obey index instruction = (result, after') ∧ R after after') :
    ∃ result following following', next code ⟨store, index, steps⟩ = (result, following) ∧
      next code ⟨store', index, steps⟩ = (result, following') ∧
      Alongside R following following' := by
  simp only [Machine.next]
  cases hinstruction : code.fetch index with
  | error kind => exact ⟨_, _, _, rfl, rfl, .mk _ _ (hfetch kind hinstruction)⟩
  | ok instruction =>
      obtain ⟨_ | _, _, _, hfirst, hsecond, hafter⟩ := hobey instruction hinstruction <;>
        simp only [hfirst, hsecond] <;> exact ⟨_, _, _, rfl, rfl, .mk _ _ hafter⟩

/-- Machines side by side execute the next instruction alike. -/
theorem Alongside.next (hR : Store.Lockstep R) (h : Alongside R machine other) (code : Code) :
    ∃ result following following', machine.next code = (result, following) ∧
      other.next code = (result, following') ∧ Alongside R following following' := by
  obtain ⟨index, steps, h⟩ := h
  exact next_alike steps (fun _ _ ↦ h) fun instruction _ ↦ hR.obey h index instruction

/-- Machines side by side have the same outcome under any limit and with any fuel, and stand side
by side again afterwards. -/
theorem Alongside.execute (hR : Store.Lockstep R) (h : Alongside R machine other) (code : Code)
    (limit : Option Int) (fuel : Nat) :
    ∃ outcome final final', machine.execute code limit fuel = (outcome, final) ∧
      other.execute code limit fuel = (outcome, final') ∧ Alongside R final final' := by
  induction fuel generalizing machine other with
  | zero => exact ⟨_, _, _, rfl, rfl, h⟩
  | succ fuel ih =>
      obtain ⟨result, following, following', hnext, hother, hafter⟩ := h.next hR code
      have hindex : machine.index = other.index := by
        cases h
        rfl
      have hsteps : machine.steps = other.steps := by
        cases h
        rfl
      simp only [Machine.execute, hindex, hsteps, hnext, hother]
      split
      · split
        · exact ⟨_, _, _, rfl, rfl, h⟩
        · cases result with
          | error => exact ⟨_, _, _, rfl, rfl, hafter⟩
          | ok => exact ih hafter
      · exact ⟨_, _, _, rfl, rfl, h⟩

variable {code : Code} {limit : Option Int} {outcome : Outcome ε}

/-- Where the first of two machines side by side takes a step, the second does so too if its
instruction succeeds. -/
theorem Alongside.step?_eq {following : Machine σ} {following' : Machine τ}
    (h : Alongside R machine other) (hstep : step? code machine = some following)
    (hnext : other.next code = (.ok (), following')) : step? code other = some following' := by
  obtain ⟨hindex, -⟩ := step?_eq_some_iff.mp hstep
  refine step?_eq_some_iff.mpr ⟨?_, hnext⟩
  cases h
  exact hindex

/-- Where the first of two machines side by side stops, so does the second, if an instruction that
fails does so on both sides. -/
theorem Alongside.stops {final : Machine σ} (h : Alongside R machine other)
    (hstop : Stops code limit machine outcome final)
    (hnext : ∀ fault, outcome = .faulted fault → machine.next code = (.error fault, final) →
      ∃ final', other.next code = (.error fault, final') ∧ Alongside R final final') :
    ∃ final', Stops code limit other outcome final' ∧ Alongside R final final' := by
  have hindex : machine.index = other.index := by
    cases h
    rfl
  have hsteps : machine.steps = other.steps := by
    cases h
    rfl
  cases hstop with
  | finished hfinished =>
      unfold Finished at hfinished
      rw [hindex] at hfinished
      exact ⟨other, .finished hfinished, h⟩
  | limitReached hrunning hlimit hbound =>
      unfold Finished at hrunning
      rw [hindex] at hrunning
      rw [hsteps] at hbound
      exact ⟨other, .limitReached hrunning hlimit hbound, h⟩
  | faulted hfails hlimit =>
      obtain ⟨final', hother, hafter⟩ := hnext _ rfl hfails.2
      exact ⟨final', .faulted ⟨hindex ▸ hfails.1, hother⟩ (hsteps ▸ hlimit), hafter⟩

/-- Where the first of two machines side by side comes to an end, so does the second. -/
theorem Alongside.ends (hR : Store.Lockstep R) (h : Alongside R machine other)
    {final : Machine σ} (hend : Ends code limit machine outcome final) :
    ∃ final', Ends code limit other outcome final' ∧ Alongside R final final' := by
  obtain ⟨hended, fuel, hexecute⟩ := hend
  obtain ⟨_, _, final', hmachine, hother, hafter⟩ := h.execute hR code limit fuel
  cases hexecute.symm.trans hmachine
  exact ⟨final', ⟨hended, fuel, hother⟩, hafter⟩

/-- Where the second of two machines side by side comes to an end, so does the first. -/
theorem Alongside.ends_of_other (hR : Store.Lockstep R) (h : Alongside R machine other)
    {final' : Machine τ} (hend : Ends code limit other outcome final') :
    ∃ final, Ends code limit machine outcome final ∧ Alongside R final final' := by
  obtain ⟨hended, fuel, hexecute⟩ := hend
  obtain ⟨_, final, _, hmachine, hother, hafter⟩ := h.execute hR code limit fuel
  cases hexecute.symm.trans hother
  exact ⟨final, ⟨hended, fuel, hmachine⟩, hafter⟩

end Machine

end TapeMachine
