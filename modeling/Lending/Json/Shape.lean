import Lending.Json.Parse

/-!
# Shapes of JSON values

What a value must look like to be read as a word, a text, a list or a record. A record is an object
whose members are found by name, in any order, each known name at most once; or an array of all its
fields in the order of their declaration. A `Shape` reads a value of the library from a JSON value,
or refuses it.

* `record`: the fields of a record; members with other names are passed over.
* `closedRecord`: the same for a record that has no other members and whose array may be short.
-/

namespace Lending.Json

/-- A reader of JSON values, which refuses those of another shape. -/
abbrev Shape (α : Type) := Json → Option α

/-- A whole number from 0 below `bound`, written without fraction and exponent. -/
def word (bound : Nat) : Shape Nat
  | .integer (.ofNat n) => if n < bound then some n else none
  | _ => none

/-- A word of 64 bits. -/
def uint64 : Shape UInt64 := fun j => (word UInt64.size j).map UInt64.ofNat

/-- A word of 32 bits. -/
def uint32 : Shape UInt32 := fun j => (word UInt32.size j).map UInt32.ofNat

/-- A word of 16 bits. -/
def uint16 : Shape UInt16 := fun j => (word UInt16.size j).map UInt16.ofNat

/-- A string that has a text. -/
def text : Shape String
  | .string s => some s
  | _ => none

/-- An array of items of one shape. -/
def listOf {α : Type} (item : Shape α) : Shape (List α)
  | .array items => items.mapM item
  | _ => none

/-- One of a few names. A name may also be written as the one member of an object, with the value
null. -/
def name {α : Type} (ofText? : String → Option α) : Shape α
  | .string s => ofText? s
  | .object [(s, .null)] => ofText? s
  | _ => none

/-! ## Records -/

/-- The value of the member `name`, if there is one; refused if there are several. -/
def member? (members : List (String × Json)) (name : String) : Option (Option Json) :=
  match members.filter fun member => member.1 == name with
  | [] => some none
  | [member] => some (some member.2)
  | _ => none

/-- The values of the fields `names`, in this order; `none` for a field that is missing. -/
def record (names : List String) : Shape (List (Option Json))
  | .object members => names.mapM (member? members)
  | .array items => if items.length = names.length then some (items.map some) else none
  | _ => none

/-- The values of the fields `names` where no other member is allowed. An array may end early, and
the fields at its end are missing then. -/
def closedRecord (names : List String) : Shape (List (Option Json))
  | .object members =>
    if members.all fun member => names.contains member.1 then names.mapM (member? members)
    else none
  | .array items =>
    if items.length ≤ names.length then
      some (items.map some ++ List.replicate (names.length - items.length) none)
    else none
  | _ => none

/-- A field that must be there. -/
def field {α : Type} (shape : Shape α) : Option Json → Option α
  | some j => shape j
  | none => none

/-- A field that may be missing or null. -/
def optionalField {α : Type} (shape : Shape α) : Option Json → Option (Option α)
  | some .null => some none
  | some j => (shape j).map some
  | none => some none

/-- A field that keeps the value `standard` when it is missing. -/
def defaultField {α : Type} (shape : Shape α) (standard : α) : Option Json → Option α
  | some j => shape j
  | none => some standard

end Lending.Json
