import MarkupEdit.Wire.Json

/-!
# Records in JSON

A record is written as an object, and is read from an object or from an array of its fields in their
order. Members that no field asks for are passed over.

* `fields?`: the values of the fields of a record.
* `required?`, `optional?`, `withDefault?`: what to make of a field.
* `choice?`: one of several names.
-/

namespace MarkupEdit.Wire

namespace Json

/-- What a JSON value stands for. -/
abbrev Reader (α : Type) := Json → Option α

/-- The values of the fields of a record, in the order of their names. -/
def fields? (names : List String) : Reader (List (Option Json))
  | object members => some (names.map (object members).member?)
  | array items =>
    if items.length ≤ names.length then
      some (items.map some ++ List.replicate (names.length - items.length) none)
    else none
  | _ => none

/-- A field that must be there. -/
def required? {α : Type} (reader : Reader α) (field : Option Json) : Option α := field.bind reader

/-- A field that may be missing, or null. -/
def optional? {α : Type} (reader : Reader α) : Option Json → Option (Option α)
  | none => some none
  | some null => some none
  | some j => (reader j).map some

/-- A field with a value for when it is missing. -/
def withDefault? {α : Type} (reader : Reader α) (value : α) : Option Json → Option α
  | none => some value
  | some j => reader j

/-- The items of an array. -/
def list? {α : Type} (reader : Reader α) : Reader (List α)
  | array items => items.mapM reader
  | _ => none

/-- A number that is written as an integer, not negative and below a bound. -/
def below? (bound : Nat) : Reader Nat := fun j =>
  j.nat?.bind (fun n => if n < bound then some n else none)

def isNull : Json → Bool
  | null => true
  | _ => false

/-- A value that tells nothing: null, or an object without members. -/
def isVoid : Json → Bool
  | null => true
  | object [] => true
  | _ => false

/-- One of several names, as a string or as the one key of an object with a value that counts for
nothing. -/
def choiceWith? {α : Type} (isNothing : Json → Bool) (names : List (String × α)) : Reader α
  | string s => names.lookup s
  | object [(s, value)] => if isNothing value then names.lookup s else none
  | _ => none

/-- One of several names, as a string or as the one key of an object without a value. -/
def choice? {α : Type} (names : List (String × α)) : Reader α := choiceWith? isNull names

/-- The members of an object, less the optional ones that are not there. -/
def record (members : List (String × Option Json)) : Json :=
  object (members.filterMap (fun (key, value) => value.map (key, ·)))

end Json

end MarkupEdit.Wire
