import MarkupEdit.Style.Declaration
import MarkupEdit.Text.TextMap
import MarkupEdit.Tree.Error
import MarkupEdit.Tree.Path

/-!
# Outcomes

What an editor reports: the new text and the changes, or why there is none.

* `EditFault`: the reasons why an edit fails, with `EditFault.kind` and `EditFault.message`.
* `Change`: one thing that an edit did.
* `Outcome`, `BatchOutcome`: the results of one edit and of several.
* `ElementInfo`: an element as it is listed.
-/

namespace MarkupEdit.Edit

open MarkupEdit.Text MarkupEdit.Tree

/-- Which hint led to the target. -/
inductive Strategy where
  | position
  | text
  | id
  | className
  /-- A literal in place of an element. -/
  | dataSource
  deriving DecidableEq, Repr

namespace Strategy

def all : List Strategy := [position, text, id, className, dataSource]

def name : Strategy → String
  | position => "position"
  | text => "text"
  | id => "id"
  | className => "className"
  | dataSource => "dataSource"

end Strategy

/-- The sort of a failure. -/
inductive FaultKind where
  | parseError
  | nodeNotFound
  | notEditable
  | protectedAttribute
  | invalidOperation
  | printError
  | internal
  deriving DecidableEq, Repr

namespace FaultKind

def all : List FaultKind :=
  [parseError, nodeNotFound, notEditable, protectedAttribute, invalidOperation, printError,
    internal]

def name : FaultKind → String
  | parseError => "parseError"
  | nodeNotFound => "nodeNotFound"
  | notEditable => "notEditable"
  | protectedAttribute => "protectedAttribute"
  | invalidOperation => "invalidOperation"
  | printError => "printError"
  | internal => "internal"

/-- What a message of this kind starts with. -/
def opening : FaultKind → String
  | parseError => "parse error: "
  | nodeNotFound => "node not found: "
  | notEditable => "node is not editable: "
  | protectedAttribute => ""
  | invalidOperation => "invalid operation: "
  | printError => "print error: "
  | internal => "internal error: "

end FaultKind

/-- Why an edit fails. -/
inductive EditFault where
  | tree (fault : SyntaxFault)
  | noHint
  | unmatched (tried : List Strategy)
  | noElement (path : Path)
  | notAnElement (path : Path)
  | nestedElements (element : String)
  /-- The element shows something that must be evaluated. -/
  | evaluatedContent (element source : String)
  | unclosed (element : String)
  | noContent (path : Path)
  | noLiteral (path : Path)
  | protectedAttribute (name : String)
  | attributeName (name : String)
  | elementName (name : String)
  | evaluatedClasses (name source : String)
  | styleText (fault : Style.StyleFault)
  | evaluatedStyle (source : String)
  /-- The element is no child of an element or a fragment. -/
  | noMarkupParent (action : String) (path : Path)
  | nothingToUnwrap (element : String)
  | severalToUnwrap (element : String)
  deriving DecidableEq, Repr

namespace EditFault

def kind : EditFault → FaultKind
  | tree (.malformed _ _) | tree (.tooDeep _ _ _) => .parseError
  | tree (.invalidSnippet _) => .invalidOperation
  | tree (.print _ _) => .printError
  | tree _ => .internal
  | unmatched _ | noElement _ => .nodeNotFound
  | nestedElements _ | evaluatedContent _ _ | evaluatedClasses _ _ | styleText _
  | evaluatedStyle _ => .notEditable
  | protectedAttribute _ => .protectedAttribute
  | noHint | notAnElement _ | attributeName _ | elementName _ | noMarkupParent _ _
  | nothingToUnwrap _ | severalToUnwrap _ => .invalidOperation
  | unclosed _ | noContent _ | noLiteral _ => .internal

/-- The message without its opening. -/
def detail : EditFault → String
  | tree fault => fault.message
  | noHint => "no locator hint given"
  | unmatched tried => "no element matched by " ++ ", ".intercalate (tried.map Strategy.name)
  | noElement path => "no element at " ++ path.text
  | notAnElement path => path.text ++ " is not an element"
  | nestedElements element => "<" ++ element ++ "> contains nested elements"
  | evaluatedContent element source =>
    "<" ++ element ++ "> renders '" ++ source ++ "', which is not a literal"
  | unclosed element => "<" ++ element ++ "> has no closing tag"
  | noContent path => path.text ++ " has no content range"
  | noLiteral path => "no literal at " ++ path.text
  | protectedAttribute name => "cannot modify protected attribute '" ++ name ++ "'"
  | attributeName name => "'" ++ name ++ "' is not an attribute name"
  | elementName name => "'" ++ name ++ "' is not an element name"
  | evaluatedClasses name source => name ++ " is computed by " ++ source
  | styleText fault => "inline style: " ++ fault.message
  | evaluatedStyle source => "inline style '" ++ source ++ "' is not a literal"
  | noMarkupParent action path =>
    "cannot " ++ action ++ " " ++ path.text ++ ": it is not inside an element or fragment"
  | nothingToUnwrap element => "<" ++ element ++ " /> has no children to unwrap"
  | severalToUnwrap element =>
    "<" ++ element ++ "> must hold exactly one element to be unwrapped in place"

def message (fault : EditFault) : String := fault.kind.opening ++ fault.detail

end EditFault

/-- Whether something came, changed or went. -/
inductive ChangeKind where
  | add
  | modify
  | remove
  deriving DecidableEq, Repr

namespace ChangeKind

def all : List ChangeKind := [add, modify, remove]

def name : ChangeKind → String
  | add => "add"
  | modify => "modify"
  | remove => "remove"

end ChangeKind

/-- One thing that an edit did. -/
structure Change where
  kind : ChangeKind
  /-- The path of the node, with the name of an attribute behind `@`. -/
  path : String
  old : Option String
  new : Option String
  deriving DecidableEq, Repr

namespace Change

def added (path new : String) : Change := ⟨.add, path, none, some new⟩

def modified (path old new : String) : Change := ⟨.modify, path, some old, some new⟩

def removed (path old : String) : Change := ⟨.remove, path, some old, none⟩

end Change

/-- The result of one edit. -/
structure Outcome where
  success : Bool
  newSource : Option String
  error : Option String
  errorKind : Option FaultKind
  changes : List Change
  strategy : Option Strategy
  deriving DecidableEq, Repr

namespace Outcome

def succeeded (source : String) (changes : List Change) (strategy : Strategy) : Outcome :=
  ⟨true, some source, none, none, changes, some strategy⟩

def failed (fault : EditFault) : Outcome :=
  ⟨false, none, some fault.message, some fault.kind, [], none⟩

end Outcome

/-- The result of edits in a row. -/
structure BatchOutcome where
  success : Bool
  /-- What the last edit that succeeded left, or the text before the first one. -/
  newSource : String
  /-- One result for each edit that was tried. -/
  results : List Outcome
  /-- The number of edits in front of the one that failed. -/
  failedAt : Option Nat
  deriving DecidableEq, Repr

/-- An element as it is listed. -/
structure ElementInfo where
  path : String
  stableId : Option String
  name : String
  attributes : TextMap
  text : String
  /-- The number of children between the tags, comments apart. -/
  childCount : UInt64
  /-- The line of the start, counted from one. -/
  line : UInt32
  /-- The column of the start in UTF-16 units, counted from zero. -/
  column : UInt32
  depth : UInt64

end MarkupEdit.Edit
