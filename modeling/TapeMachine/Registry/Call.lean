import TapeMachine.Registry

/-!
# Calls of a registry

The calls that a registry answers, each with its result and with the registry that it leaves. A
history is a list of calls made one after the other.
-/

namespace TapeMachine.Registry

/-- A call of a registry. -/
inductive Call where
  | register (code : String)
  | find (id : String)
  | remove (id : String)
  | clear
deriving DecidableEq, Inhabited

/-- What a call comes to. -/
inductive Result where
  | registered (record : Record) (evicted : List Record)
  | refused (fault : BracketFault)
  | found (record : Record)
  | unknown (id : String)
  | removed (wasStored : Bool)
  | cleared
deriving DecidableEq

/-- Make a call: its result and the registry afterwards. -/
def call (registry : Registry) : Call → Result × Registry
  | .register code =>
      match registry.register code with
      | .error fault => (.refused fault, registry)
      | .ok registration =>
          (.registered registration.record registration.evicted, registration.registry)
  | .find id =>
      match registry.find? id with
      | some record => (.found record, registry)
      | none => (.unknown id, registry)
  | .remove id => (.removed (registry.find? id).isSome, registry.erase id)
  | .clear => (.cleared, registry.clear)

/-- The registry after a history. -/
def afterAll (registry : Registry) (history : List Call) : Registry :=
  history.foldl (fun registry made ↦ (registry.call made).2) registry

/-- What a call reports: a registration its compilation and then each eviction. -/
def Call.entries : Call → Result → List LogEntry
  | .register code, .registered record evicted =>
      registrationEntries code record evicted
  | _, _ => []

end TapeMachine.Registry
