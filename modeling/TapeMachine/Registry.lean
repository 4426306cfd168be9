import TapeMachine.Compile
import TapeMachine.Log
import TapeMachine.Spelling
import TapeMachine.Text.Hex

/-!
# The program registry

A registry keeps compiled programs under ids, in the order of their registration, and never more
of them than its capacity: registering one more evicts the oldest. Ids come from a supply that
is asked once for each program accepted. An id that comes again while its program is still
stored takes over the place of that program.
-/

namespace TapeMachine

/-- A supply of ids: the id of each request, counted from zero, and the number of requests. -/
structure IdSupply where
  name : Nat → String
  issued : Nat

namespace IdSupply

/-- The id of the `n`-th request where none has been chosen for it: its ordinal as 32 digits. -/
def ordinalName (n : Nat) : String :=
  String.ofList (Text.hexPadded 32 (n + 1))

/-- The supply that gives out the chosen ids first and ordinals after them. -/
def ofChosen (chosen : Array String) : IdSupply :=
  ⟨fun n ↦ chosen[n]?.getD (ordinalName n), 0⟩

/-- The id that the next request gets. -/
def next (supply : IdSupply) : String :=
  supply.name supply.issued

/-- The supply after one request. -/
def advance (supply : IdSupply) : IdSupply :=
  { supply with issued := supply.issued + 1 }

end IdSupply

/-- A stored program. -/
structure Record where
  id : String
  program : Program
deriving DecidableEq

/-- The shortest source of a stored program, as text. -/
def Record.normalized (record : Record) : String :=
  Operator.toText record.program.spell

/-- A registry: its capacity, its records from the oldest to the newest, and its ids. -/
structure Registry where
  capacity : Nat
  capacity_pos : 0 < capacity
  records : List Record
  supply : IdSupply

namespace Registry

/-- The default capacity. -/
def defaultCapacity : Int :=
  1024

/-- The message for a capacity that is not positive. -/
def capacityMessage : String :=
  "max_programs must be positive"

/-- The message for an id under which nothing is stored. -/
def unknownMessage (id : String) : String :=
  "Unknown program id: " ++ id

/-- The message for looking up an id under which nothing is stored. -/
def lookupMessage (id : String) : String :=
  Text.quoted (unknownMessage id)

/-- The empty registry, if the capacity is positive. -/
def empty? (capacity : Int) (supply : IdSupply) : Option Registry :=
  if h : 0 < capacity then some ⟨capacity.toNat, toNat_pos h, [], supply⟩ else none

/-- The number of records. -/
def size (registry : Registry) : Nat :=
  registry.records.length

/-- Put a record at the end, or in the place of the record that has its id. -/
def place (record : Record) (records : List Record) : List Record :=
  if records.any fun stored ↦ stored.id = record.id then
    records.map fun stored ↦ if stored.id = record.id then record else stored
  else
    records ++ [record]

/-- What registering a program comes to: its record, the records evicted for it, oldest first,
and the registry afterwards. -/
structure Registration where
  record : Record
  evicted : List Record
  registry : Registry

/-- Store a program under the next id of the supply and evict the oldest records that exceed
the capacity. -/
def store (program : Program) (registry : Registry) : Registration :=
  let record : Record := ⟨registry.supply.next, program⟩
  let records := place record registry.records
  let excess := records.length - registry.capacity
  { record
    evicted := records.take excess
    registry :=
      { registry with records := records.drop excess, supply := registry.supply.advance } }

/-- Compile a source and store its program. A source that is refused takes no id. -/
def register (code : String) (registry : Registry) : Except BracketFault Registration :=
  match compile (Source.ofText code) with
  | .error fault => .error fault
  | .ok program => .ok (registry.store program)

/-- What a registration of this code reports: its compilation, then each eviction. -/
def registrationEntries (code : String) (record : Record) (evicted : List Record) :
    List LogEntry :=
  .compiled (Source.ofText code).length record.program.size ::
    evicted.map fun old ↦ .evicted old.id

/-- The record stored under an id. -/
def find? (id : String) (registry : Registry) : Option Record :=
  registry.records.find? fun record ↦ record.id = id

/-- The registry without the record stored under an id. -/
def erase (id : String) (registry : Registry) : Registry :=
  { registry with records := registry.records.filter fun record ↦ record.id ≠ id }

/-- The registry without any records. Ids go on where they were. -/
def clear (registry : Registry) : Registry :=
  { registry with records := [] }

/-- Storing a program leaves no more records than the capacity. -/
theorem size_store_le (program : Program) (registry : Registry) :
    (registry.store program).registry.size ≤ registry.capacity := by
  simp only [store, size, List.length_drop]
  omega

end Registry

end TapeMachine
