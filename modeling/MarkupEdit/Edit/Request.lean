import MarkupEdit.Text.TextMap

/-!
# Requests

What an editor is asked for: which element, and what to do with it.

* `Criteria`: hints at an element, any number of them.
* `Operation`: one edit.
* `Request`, `BatchRequest`: one edit of a file, and several in a row.
-/

namespace MarkupEdit.Edit

open MarkupEdit.Text

/-- A stable id. -/
inductive IdHint where
  /-- The first element with the id. -/
  | first (id : String)
  /-- One of the elements with the id, counted from zero; the first if no number is given. -/
  | nth (id : String) (index : Option UInt64)
  deriving DecidableEq, Repr

namespace IdHint

def id : IdHint → String
  | first id => id
  | nth id _ => id

/-- The number of elements with the id that come before the wanted one. -/
def index : IdHint → Nat
  | first _ => 0
  | nth _ index => (index.getD 0).toNat

end IdHint

/-- A line, counted from one, and a column in UTF-16 units, counted from zero. -/
structure PositionHint where
  line : UInt32
  column : UInt32
  deriving DecidableEq, Repr

/-- The text that an element shows. -/
structure TextHint where
  text : String
  /-- The name that the element must have. -/
  tag : Option String
  deriving DecidableEq, Repr

/-- All classes of an element. -/
structure ClassHint where
  value : String
  /-- The name that the element must have. -/
  tag : Option String
  deriving DecidableEq, Repr

/-- Hints at an element. -/
structure Criteria where
  byId : Option IdHint := none
  byPosition : Option PositionHint := none
  byText : Option TextHint := none
  byClass : Option ClassHint := none
  deriving DecidableEq, Repr

namespace Criteria

def isEmpty (c : Criteria) : Bool :=
  c.byId.isNone && c.byPosition.isNone && c.byText.isNone && c.byClass.isNone

def ofId (id : String) : Criteria := { byId := some (.first id) }

def ofPosition (line column : UInt32) : Criteria := { byPosition := some ⟨line, column⟩ }

def ofText (text : String) : Criteria := { byText := some ⟨text, none⟩ }

def ofClass (value : String) : Criteria := { byClass := some ⟨value, none⟩ }

end Criteria

/-- Where markup is inserted, as seen from an element. -/
inductive InsertPosition where
  | before
  | after
  | firstChild
  | lastChild
  deriving DecidableEq, Repr

/-- What an attribute is set to. -/
inductive AttributeValue where
  | text (value : String)
  /-- Present without a value, or not there at all. -/
  | flag (isPresent : Bool)
  deriving DecidableEq, Repr

/-- A change of classes and inline style. -/
structure StyleChange where
  /-- A text that replaces all classes. -/
  className : Option String
  added : List String
  removed : List String
  /-- Values for properties; a blank one removes the property. -/
  style : TextMap

/-- One edit of an element. -/
inductive Operation where
  /-- Replaces the text that the element shows. -/
  | text (value : String)
  | style (change : StyleChange)
  /-- Sets an attribute, or removes it. -/
  | setAttribute (name : String) (value : Option AttributeValue)
  | remove
  | insert (snippet : String) (position : InsertPosition)
  | replace (markup : String)
  /-- Puts the element into a new one. -/
  | wrap (element : String) (attributes : TextMap)
  /-- Puts the content of the element in its place. -/
  | unwrap

def Operation.name : Operation → String
  | text _ => "text"
  | style _ => "style"
  | setAttribute _ _ => "attribute"
  | remove => "remove"
  | insert _ _ => "insert"
  | replace _ => "replace"
  | wrap _ _ => "wrap"
  | unwrap => "unwrap"

/-- One edit of a file. -/
structure Request where
  source : String
  /-- The name of the file, which tells its language. -/
  file : String
  locator : Criteria
  operation : Operation

/-- One edit in a row of edits. -/
structure BatchEdit where
  locator : Criteria
  operation : Operation

/-- Edits of a file, each made in what the one before it left. -/
structure BatchRequest where
  source : String
  file : String
  edits : List BatchEdit

end MarkupEdit.Edit
