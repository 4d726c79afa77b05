import MarkupEdit.Edit.Config
import MarkupEdit.Wire.Record

/-!
# Configuration in JSON

Settings that are not given have their defaults. A setting that is given twice is an error.

* `readConfig`: the configuration that a text holds.
-/

namespace MarkupEdit.Wire

open MarkupEdit.Edit MarkupEdit.Number

/-- Why a text holds no configuration. -/
inductive ConfigTextFault where
  /-- Not JSON, or not of the right shape. -/
  | shape
  | setting (fault : ConfigFault)
  deriving DecidableEq, Repr

namespace Json

/-- The fields of a record none of which is given twice. -/
def fieldsOnce? (names : List String) (j : Json) : Option (List (Option Json)) :=
  match j with
  | object members =>
    if names.all (fun name => (members.map Prod.fst).count name ≤ 1) then fields? names j else none
  | _ => fields? names j

def double? : Reader Double
  | number d => Double.ofScientific? d.negative d.digits d.exponent
  | _ => none

def size? : Reader Nat := below? UInt64.size

def positionConfig? : Reader PositionConfig := fun j => do
  let [tolerance, sameLine] ← fieldsOnce? ["tolerance_bytes", "same_line"] j | none
  let standard : PositionConfig := {}
  return {
    tolerance := ← withDefault? size? standard.tolerance tolerance
    sameLine := ← withDefault? bool? standard.sameLine sameLine }

def similarityFloor? : Reader Double := fun j => do
  let [floor] ← fieldsOnce? ["similarity_floor"] j | none
  withDefault? double? ({} : Config).similarityFloor floor

def literalConfig? : Reader LiteralConfig := fun j => do
  let [enabled, preferArrays, preserveCase] ←
    fieldsOnce? ["enabled", "prefer_array_literals", "preserve_case"] j | none
  let standard : LiteralConfig := {}
  return {
    enabled := ← withDefault? bool? standard.enabled enabled
    preferArrays := ← withDefault? bool? standard.preferArrays preferArrays
    preserveCase := ← withDefault? bool? standard.preserveCase preserveCase }

/-- The settings that a value gives. -/
def config? : Reader Config := fun j => do
  let [idAttribute, classAttributes, position, floor, literals, maxDepth, preferClasses] ←
    fieldsOnce? ["stable_id_attribute", "class_attributes", "position", "text", "data_source",
      "max_traversal_depth", "prefer_utility_classes"] j | none
  let standard : Config := {}
  return {
    idAttribute := ← withDefault? string? standard.idAttribute idAttribute
    classAttributes := ← withDefault? (list? string?) standard.classAttributes classAttributes
    position := ← withDefault? positionConfig? standard.position position
    similarityFloor := ← withDefault? similarityFloor? standard.similarityFloor floor
    literals := ← withDefault? literalConfig? standard.literals literals
    maxDepth := ← withDefault? size? standard.maxDepth maxDepth
    preferClasses := ← withDefault? bool? standard.preferClasses preferClasses }

end Json

/-- The configuration that a text holds, if all its settings are usable. -/
def readConfig (text : String) : Except ConfigTextFault Config :=
  match (Json.read text.length text).bind Json.config? with
  | none => .error .shape
  | some config =>
    match config.validate with
    | .ok config => .ok config
    | .error fault => .error (.setting fault)

end MarkupEdit.Wire
