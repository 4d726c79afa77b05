import MarkupEdit.Number.Double
import MarkupEdit.Text.Blank
import MarkupEdit.Tree.Traversal

/-!
# Configuration

What an editor can be told about the markup it edits, with defaults for all of it.

* `Config`: the settings.
* `Config.validate`: the settings, or the first of them that nothing can be done with.
-/

namespace MarkupEdit.Edit

open MarkupEdit.Number MarkupEdit.Text

/-- How elements are found by a position. -/
structure PositionConfig where
  /-- The greatest distance in bytes between the position and the start of an element. -/
  tolerance : Nat := 50
  /-- Whether an element on the line of the position is accepted at any distance. -/
  sameLine : Bool := true
  deriving DecidableEq, Repr

/-- How texts are looked for in literals when no element shows them. -/
structure LiteralConfig where
  enabled : Bool := true
  /-- Whether literals in arrays come first. -/
  preferArrays : Bool := true
  /-- Whether a new text takes over the letter case of the old one. -/
  preserveCase : Bool := true
  deriving DecidableEq, Repr

structure Config where
  /-- The attribute that identifies elements. No edit may change it. -/
  idAttribute : String := "data-stitch-id"
  /-- The attributes that hold classes, in the order of preference. -/
  classAttributes : List String := ["className", "class"]
  position : PositionConfig := {}
  /-- The least ratio of lengths at which one text may stand for another that contains it. -/
  similarityFloor : Double := Double.ofRatio 1 2
  literals : LiteralConfig := {}
  /-- The greatest depth at which elements are looked for. -/
  maxDepth : Nat := Tree.defaultMaxDepth
  /-- Whether styles become utility classes where there are any. -/
  preferClasses : Bool := true
  deriving DecidableEq, Repr

/-- A setting that nothing can be done with. -/
inductive ConfigFault where
  | similarityFloor (given : Double)
  | maxDepth
  | idAttribute
  | classAttributes
  deriving DecidableEq, Repr

namespace ConfigFault

/-- The setting that is at fault. -/
def field : ConfigFault → String
  | similarityFloor _ => "text.similarity_floor"
  | maxDepth => "max_traversal_depth"
  | idAttribute => "stable_id_attribute"
  | classAttributes => "class_attributes"

def reason : ConfigFault → String
  | similarityFloor given => "must be within 0.0..=1.0, got " ++ given.text
  | maxDepth => "must be greater than zero"
  | idAttribute => "must not be empty"
  | classAttributes => "must name at least one attribute"

def message (fault : ConfigFault) : String :=
  "invalid engine configuration: " ++ fault.field ++ " " ++ fault.reason

end ConfigFault

namespace Config

/-- The settings, if all of them are usable. -/
def validate (config : Config) : Except ConfigFault Config :=
  if !config.similarityFloor.isWithinUnit then .error (.similarityFloor config.similarityFloor)
  else if config.maxDepth = 0 then .error .maxDepth
  else if allBlank config.idAttribute then .error .idAttribute
  else if config.classAttributes.all allBlank then .error .classAttributes
  else .ok config

/-- The attribute that is made when an element gets its first classes. -/
def primaryClassAttribute (config : Config) : String :=
  (config.classAttributes.find? (fun name => !allBlank name)).getD "className"

end Config

end MarkupEdit.Edit
