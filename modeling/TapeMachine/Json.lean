import TapeMachine.Decimal
import TapeMachine.Text.CodePoint

/-!
# JSON values

Numbers keep the distinction between integers, which are exact and unbounded, and numbers
written with a point or an exponent. Objects keep their members in the order in which they were
written, repeated keys included; looking a key up finds its last member.

`Document` is a value as it was read. Its strings are lists of code points, because they may hold
surrogates that stand alone. In `Json` they are plain strings.
-/

namespace TapeMachine

/-- A JSON value whose strings and keys are held as `σ`. -/
inductive JsonOf (σ : Type) where
  | null
  | bool (value : Bool)
  | integer (value : Int)
  | decimal (value : Decimal)
  | string (value : σ)
  | array (items : List (JsonOf σ))
  | object (members : List (σ × JsonOf σ))

namespace JsonOf

variable {σ τ : Type}

/-- Some value. -/
instance : Inhabited (JsonOf σ) :=
  ⟨null⟩

/-- The last member of a list of members that has this key. -/
def lookup [DecidableEq σ] (key : σ) (members : List (σ × JsonOf σ)) : Option (JsonOf σ) :=
  members.foldl (fun found member ↦ if member.1 = key then some member.2 else found) none

/-- The member of an object with this key. -/
def member? [DecidableEq σ] (key : σ) : JsonOf σ → Option (JsonOf σ)
  | object members => lookup key members
  | _ => none

/-- An integer, or `null` for a missing one. -/
def ofInt? : Option Int → JsonOf σ
  | some value => integer value
  | none => null

mutual

/-- The value with its strings and keys held in another way. -/
def map (f : σ → τ) : JsonOf σ → JsonOf τ
  | null => null
  | bool value => bool value
  | integer value => integer value
  | decimal value => decimal value
  | string value => string (f value)
  | array items => array (mapItems f items)
  | object members => object (mapMembers f members)

/-- `map` on the items of an array. -/
def mapItems (f : σ → τ) : List (JsonOf σ) → List (JsonOf τ)
  | [] => []
  | item :: rest => map f item :: mapItems f rest

/-- `map` on the members of an object. -/
def mapMembers (f : σ → τ) : List (σ × JsonOf σ) → List (τ × JsonOf τ)
  | [] => []
  | (key, value) :: rest => (f key, map f value) :: mapMembers f rest

end

end JsonOf

/-- A JSON value with plain strings. -/
abbrev Json :=
  JsonOf String

/-- A JSON value as it was read. -/
abbrev Document :=
  JsonOf (List Text.CodePoint)

/-- A value as a document. -/
def Json.document (value : Json) : Document :=
  value.map Text.codePoints

/-- A document with plain strings. -/
def Document.shown (document : Document) : Json :=
  document.map Text.shownText

end TapeMachine
