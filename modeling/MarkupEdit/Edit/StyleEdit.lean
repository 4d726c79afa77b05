import MarkupEdit.Edit.AttributeEdit
import MarkupEdit.Style.ClassList
import MarkupEdit.Style.Mapping

/-!
# Style of an element

Classes are merged, so that a new class takes the place of those it conflicts with. Properties
become utility classes where there are any; the others go into the inline style, which is written as
an object.

* `ClassPlan.of`: the classes that an element gets.
* `currentStyle`: the entries of the inline style of an element.
* `editStyle`: a change of classes and inline style.
-/

namespace MarkupEdit.Edit

open MarkupEdit.Text MarkupEdit.Tree MarkupEdit.Style

/-- The attribute of the inline style. -/
def styleAttribute : String := "style"

/-! ## Classes -/

/-- The attribute that holds the classes of an element, and its value. -/
structure CurrentClasses where
  name : String
  value : String
  deriving DecidableEq, Repr

/-- The classes in an opening tag, unless they must be evaluated. -/
def currentClasses (opening : Node) (config : Config) : Except EditFault CurrentClasses :=
  match config.classAttributes.findSome? (fun name =>
      (opening.children.find? (Node.isAttribute name)).map (fun child =>
        (name, attributeContent child))) with
  | none => .ok ⟨config.primaryClassAttribute, ""⟩
  | some (name, .present) => .ok ⟨name, ""⟩
  | some (name, .static value) => .ok ⟨name, value⟩
  | some (name, .evaluated source) => .error (.evaluatedClasses name source)

/-- The classes after a change, with the utility classes that its properties became. -/
def changedClasses (current : String) (change : StyleChange) (utility : List String) : String :=
  let base := ClassList.parse (change.className.getD current)
  ClassList.text ((base.without (change.removed.flatMap words)).merge
    (change.added.flatMap words ++ utility))

/-- Whether a change is about classes. -/
def touchesClasses (change : StyleChange) (utility : List String) : Bool :=
  change.className.isSome || !change.added.isEmpty || !change.removed.isEmpty || !utility.isEmpty

/-! ## Inline style -/

/-- A value in a style object. -/
inductive StyleValue where
  | text (value : String)
  /-- A number, as it is written. -/
  | number (source : String)
  deriving DecidableEq, Repr

namespace StyleValue

def shown : StyleValue → String
  | text value => value
  | number source => source

def node : StyleValue → Node
  | text value => .stringLiteral value '"'
  | number source => .leaf (.other "number") source

end StyleValue

/-- A property, written with hyphens, and its value. -/
abbrev StyleEntry := String × StyleValue

/-- The entries of a style text. -/
def textEntries (text : String) : Except EditFault (List StyleEntry) :=
  match parseInline text with
  | .ok declarations => .ok (declarations.map (fun d => (d.property, .text d.value)))
  | .error fault => .error (.styleText fault)

/-- The name that the key of a pair stands for. -/
def keyText? (pair : Node) : Option String :=
  if pair.kind != .pair then none
  else
    (pair.childByField? "key").bind fun key =>
      if key.kind == .propertyIdentifier then key.text else key.staticValue?

/-- The entry that a pair in a style object stands for. -/
def pairEntry (pair : Node) : Except EditFault StyleEntry :=
  match keyText? pair, pair.childByField? "value" with
  | some key, some value =>
    match value.staticValue? with
    | some text => .ok (kebabCase key, .text text)
    | none =>
      if value.kind == .other "number" then .ok (kebabCase key, .number value.body)
      else .error (.evaluatedStyle pair.body)
  | _, _ => .error (.evaluatedStyle pair.body)

/-- The object that is all there is between braces. -/
def bracedObject? (n : Node) : Option Node :=
  match n.namedChildren with
  | [object] => if object.kind == .object then some object else none
  | _ => none

/-- The entries of the inline style in an opening tag, unless they must be evaluated. -/
def currentStyle (opening : Node) : Except EditFault (List StyleEntry) :=
  match opening.children.find? (Node.isAttribute styleAttribute) with
  | none => .ok []
  | some style =>
    match attributeContent style with
    | .present => .ok []
    | .static text => textEntries text
    | .evaluated _ =>
      match style.attributeValueNode?.bind bracedObject? with
      | some object => object.namedChildren.mapM pairEntry
      | none => .error (.evaluatedStyle style.body)

/-- A property to be set, or to be removed. -/
abbrev StyleUpdate := String × Option String

/-- Entries without the first one for a property. -/
def removeEntry (property : String) : List StyleEntry → List StyleEntry
  | [] => []
  | entry :: rest => if entry.1 == property then rest else entry :: removeEntry property rest

/-- Entries with a text as the value of a property: in the first entry for it, or in a new one. -/
def setEntry (property value : String) : List StyleEntry → List StyleEntry
  | [] => [(property, .text value)]
  | entry :: rest =>
    if entry.1 == property then (property, .text value) :: rest
    else entry :: setEntry property value rest

def updateEntry (entries : List StyleEntry) : StyleUpdate → List StyleEntry
  | (property, none) => removeEntry property entries
  | (property, some value) => setEntry property value entries

/-- Entries as the text of a style. -/
def styleText (entries : List StyleEntry) : String :=
  "; ".intercalate (entries.map (fun (property, value) => property ++ ": " ++ value.shown))

/-- The style attribute for some entries. -/
def styleNode (entries : List StyleEntry) : Node :=
  .markupAttribute styleAttribute (some (.markupExpression (.objectLiteral
    (entries.map (fun (property, value) => (camelCase property, value.node))))))

/-- An opening tag with some entries as its inline style. -/
def withStyle (entries : List StyleEntry) (opening : Node) : Node :=
  let existing := opening.attributeIndex? styleAttribute
  match existing, existing.bind (opening.children[·]?), entries.isEmpty with
  | some index, _, true => opening.withChildren (opening.children.eraseIdx index)
  | some index, some previous, false =>
    opening.withChildren (opening.children.set index (inPlaceOf (styleNode entries) previous))
  | _, _, true => opening
  | _, _, false =>
    opening.withChildren (opening.children.insertIdx opening.attributeEnd (styleNode entries))

/-- The change from some entries to others, as it is reported. -/
def styleReport (path : String) (existed : Bool) (before after : List StyleEntry) : Change :=
  if after.isEmpty then .removed path (styleText before)
  else if existed then .modified path (styleText before) (styleText after)
  else .added path (styleText after)

/-! ## The whole change -/

/-- The properties of a change: those that become classes and what is left to the inline style. -/
structure StylePlan where
  utility : List String
  updates : List StyleUpdate
  deriving DecidableEq, Repr

namespace StylePlan

/-- The plan for one property. What became a class leaves the inline style. -/
def add (preferClasses : Bool) (plan : StylePlan) (entry : String × String) : StylePlan :=
  let property := kebabCase (trimmed entry.1)
  let value := trimmed entry.2
  if value == "" then { plan with updates := plan.updates ++ [(property, none)] }
  else
    match (if preferClasses then utilityClass? property value else none) with
    | some token => ⟨plan.utility ++ [token], plan.updates ++ [(property, none)]⟩
    | none => { plan with updates := plan.updates ++ [(property, some value)] }

def of (preferClasses : Bool) (style : TextMap) : StylePlan :=
  style.entries.foldl (add preferClasses) ⟨[], []⟩

end StylePlan

/-- The new value of the class attribute, if a change makes one. -/
def classEdit? (opening : Node) (change : StyleChange) (utility : List String) (config : Config) :
    Except EditFault (Option CurrentClasses) :=
  if touchesClasses change utility then do
    let current ← currentClasses opening config
    let merged := changedClasses current.value change utility
    return if merged == current.value then none else some ⟨current.name, merged⟩
  else .ok none

/-- The entries of the inline style before and after a change, if it makes one. -/
def styleEdit? (opening : Node) (updates : List StyleUpdate) :
    Except EditFault (Option (List StyleEntry × List StyleEntry)) :=
  if updates.isEmpty then .ok none
  else do
    let before ← currentStyle opening
    let after := updates.foldl updateEntry before
    return if after == before then none else some (before, after)

/-- Sets the class attribute of the element at a path, if there is a new value for it. -/
def editClasses (tree : SourceTree) (path : Path) (classEdit : Option CurrentClasses)
    (config : Config) : Except EditFault (SourceTree × List Change) :=
  match classEdit with
  | none => .ok (tree, [])
  | some ⟨name, value⟩ =>
    editAttribute tree path name (if value == "" then none else some (.text value)) config

/-- Sets the inline style of the element at a path, if it changes. -/
def editInlineStyle (tree : SourceTree) (path : Path)
    (styleEdit : Option (List StyleEntry × List StyleEntry)) :
    Except EditFault (SourceTree × List Change) :=
  match styleEdit with
  | none => .ok (tree, [])
  | some (before, after) => do
    let element ← elementAt tree path
    let existed := (element.opening?.bind (·.attributeIndex? styleAttribute)).isSome
    return (← placed tree path (element.updateOpening (withStyle after)),
      [styleReport (attributePath path styleAttribute) existed before after])

/-- Changes the classes and the inline style of the element at a path. An element whose classes must
be evaluated gets no utility classes. -/
def editStyle (tree : SourceTree) (path : Path) (change : StyleChange) (config : Config) :
    Except EditFault (SourceTree × List Change) := do
  let element ← elementAt tree path
  match element.opening? with
  | none => throw (.notAnElement path)
  | some opening =>
    let canHold := (currentClasses opening config).isOk
    let plan := StylePlan.of (config.preferClasses && canHold) change.style
    let classEdit ← classEdit? opening change plan.utility config
    let styleEdit ← styleEdit? opening plan.updates
    let (tree, classChanges) ← editClasses tree path classEdit config
    let (tree, styleChanges) ← editInlineStyle tree path styleEdit
    return (tree, classChanges ++ styleChanges)

end MarkupEdit.Edit
