import MarkupEdit.Edit.Outcome
import MarkupEdit.Edit.Request
import MarkupEdit.Wire.Record

/-!
# Requests and outcomes in JSON

How a service and an editor talk to each other. Every type has a writer `encode` and a reader
`decode?`, and the reader takes what the writer makes.
-/

namespace MarkupEdit.Wire

open MarkupEdit.Edit MarkupEdit.Text Json

/-- The members of an object whose values are texts. -/
def encodeMap (m : TextMap) : Json :=
  object (m.entries.map (fun (key, value) => (key, string value)))

def decodeMap? : Reader TextMap
  | object members =>
    (members.mapM (fun member => (string? member.2).map (fun value => (member.1, value)))).map
      TextMap.ofList
  | _ => none

def encodeSize (n : UInt64) : Json := ofNat n.toNat

def decodeSize? : Reader UInt64 := fun j => (below? UInt64.size j).map UInt64.ofNat

def encodeUnit (n : UInt32) : Json := ofNat n.toNat

def decodeUnit? : Reader UInt32 := fun j => (below? UInt32.size j).map UInt32.ofNat

def strings (l : List String) : Json := array (l.map string)

/-! ## Hints -/

def encodeIdHint : IdHint → Json
  | .first id => string id
  | .nth id index => record [("id", some (string id)), ("instance", index.map encodeSize)]

/-- An id alone is a string; with a number it is an object. -/
def decodeIdHint? : Reader IdHint
  | string id => some (.first id)
  | object members =>
    match required? string? ((object members).member? "id"),
        optional? decodeSize? ((object members).member? "instance") with
    | some id, some index => some (.nth id index)
    | _, _ => none
  | _ => none

def encodePosition (p : PositionHint) : Json :=
  record [("line", some (encodeUnit p.line)), ("column", some (encodeUnit p.column))]

def decodePosition? : Reader PositionHint := fun j => do
  let [line, column] ← fields? ["line", "column"] j | none
  return ⟨← required? decodeUnit? line, ← required? decodeUnit? column⟩

def encodeTextHint (hint : TextHint) : Json :=
  record [("original", some (string hint.text)), ("tagNameFilter", hint.tag.map string)]

def decodeTextHint? : Reader TextHint := fun j => do
  let [text, tag] ← fields? ["original", "tagNameFilter"] j | none
  return ⟨← required? string? text, ← optional? string? tag⟩

def encodeClassHint (hint : ClassHint) : Json :=
  record [("value", some (string hint.value)), ("tagNameFilter", hint.tag.map string)]

def decodeClassHint? : Reader ClassHint := fun j => do
  let [value, tag] ← fields? ["value", "tagNameFilter"] j | none
  return ⟨← required? string? value, ← optional? string? tag⟩

def encodeCriteria (c : Criteria) : Json :=
  record [("byId", c.byId.map encodeIdHint), ("byPosition", c.byPosition.map encodePosition),
    ("byText", c.byText.map encodeTextHint), ("byClassName", c.byClass.map encodeClassHint)]

def decodeCriteria? : Reader Criteria := fun j => do
  let [byId, byPosition, byText, byClass] ←
    fields? ["byId", "byPosition", "byText", "byClassName"] j | none
  return ⟨← optional? decodeIdHint? byId, ← optional? decodePosition? byPosition,
    ← optional? decodeTextHint? byText, ← optional? decodeClassHint? byClass⟩

/-! ## Operations -/

def insertPositionName : InsertPosition → String
  | .before => "before"
  | .after => "after"
  | .firstChild => "firstChild"
  | .lastChild => "lastChild"

def insertPositions : List InsertPosition := [.before, .after, .firstChild, .lastChild]

/-- Values by their names. -/
def byName {α : Type} (name : α → String) (all : List α) : List (String × α) :=
  all.map (fun a => (name a, a))

def decodeInsertPosition? : Reader InsertPosition :=
  choice? (byName insertPositionName insertPositions)

/-- The position in an operation, where the value behind its name may also be an empty object. -/
def decodePlacement? : Reader InsertPosition :=
  choiceWith? isVoid (byName insertPositionName insertPositions)

def encodeAttributeValue : AttributeValue → Json
  | .text value => string value
  | .flag isPresent => .bool isPresent

def decodeAttributeValue? : Reader AttributeValue
  | .string value => some (.text value)
  | .bool isPresent => some (.flag isPresent)
  | _ => none

/-- A member, unless it is empty. -/
def unlessEmpty (isEmpty : Bool) (j : Json) : Option Json := if isEmpty then none else some j

def styleMembers (change : StyleChange) : List (String × Option Json) :=
  [("className", change.className.map string),
    ("addClasses", unlessEmpty change.added.isEmpty (strings change.added)),
    ("removeClasses", unlessEmpty change.removed.isEmpty (strings change.removed)),
    ("style", unlessEmpty change.style.isEmpty (encodeMap change.style))]

def decodeStyleChange? : Reader StyleChange := fun j => do
  let [className, added, removed, style] ←
    fields? ["className", "addClasses", "removeClasses", "style"] j | none
  return ⟨← optional? string? className, ← withDefault? (list? string?) [] added,
    ← withDefault? (list? string?) [] removed, ← withDefault? decodeMap? TextMap.empty style⟩

def operationMembers : Operation → List (String × Option Json)
  | .text value => [("text", some (string value))]
  | .style change => styleMembers change
  | .setAttribute name value =>
    [("name", some (string name)), ("value", some ((value.map encodeAttributeValue).getD null))]
  | .remove => []
  | .insert snippet position =>
    [("markupSnippet", some (string snippet)),
      ("position", some (string (insertPositionName position)))]
  | .replace markup => [("markup", some (string markup))]
  | .wrap element attributes =>
    [("element", some (string element)),
      ("attributes", unlessEmpty attributes.isEmpty (encodeMap attributes))]
  | .unwrap => []

/-- An operation is an object with its name under `type`. -/
def encodeOperation (operation : Operation) : Json :=
  record (("type", some (string operation.name)) :: operationMembers operation)

/-- The operation with a name, from the value that holds its fields. -/
def namedOperation? (name : String) (j : Json) : Option Operation :=
  match name with
  | "text" => do
    let [value] ← fields? ["text"] j | none
    return .text (← required? string? value)
  | "style" => (decodeStyleChange? j).map .style
  | "attribute" => do
    let [name, value] ← fields? ["name", "value"] j | none
    return .setAttribute (← required? string? name) (← optional? decodeAttributeValue? value)
  | "remove" => (noFields? j).map (fun _ => .remove)
  | "insert" => do
    let [snippet, position] ← fields? ["markupSnippet", "position"] j | none
    return .insert (← required? string? snippet) (← required? decodePlacement? position)
  | "replace" => do
    let [markup] ← fields? ["markup"] j | none
    return .replace (← required? string? markup)
  | "wrap" => do
    let [element, attributes] ← fields? ["element", "attributes"] j | none
    return .wrap (← required? string? element)
      (← withDefault? decodeMap? TextMap.empty attributes)
  | "unwrap" => (noFields? j).map (fun _ => .unwrap)
  | _ => none
where
  /-- No fields at all are asked for. -/
  noFields? (j : Json) : Option (List (Option Json)) := fields? [] j

/-- In an array the name comes first, and the fields follow. -/
def decodeOperation? : Reader Operation
  | object members =>
    (required? string? ((object members).member? "type")).bind
      (fun name => namedOperation? name (object members))
  | array (string name :: items) => namedOperation? name (array items)
  | _ => none

/-! ## Requests -/

def encodeRequest (r : Request) : Json :=
  record [("sourceText", some (string r.source)), ("filePath", some (string r.file)),
    ("locator", some (encodeCriteria r.locator)),
    ("operation", some (encodeOperation r.operation))]

def decodeRequest? : Reader Request := fun j => do
  let [source, file, locator, operation] ←
    fields? ["sourceText", "filePath", "locator", "operation"] j | none
  return ⟨← required? string? source, ← required? string? file,
    ← required? decodeCriteria? locator, ← required? decodeOperation? operation⟩

def encodeBatchEdit (e : BatchEdit) : Json :=
  record [("locator", some (encodeCriteria e.locator)),
    ("operation", some (encodeOperation e.operation))]

def decodeBatchEdit? : Reader BatchEdit := fun j => do
  let [locator, operation] ← fields? ["locator", "operation"] j | none
  return ⟨← required? decodeCriteria? locator, ← required? decodeOperation? operation⟩

def encodeBatchRequest (r : BatchRequest) : Json :=
  record [("sourceText", some (string r.source)), ("filePath", some (string r.file)),
    ("edits", some (array (r.edits.map encodeBatchEdit)))]

def decodeBatchRequest? : Reader BatchRequest := fun j => do
  let [source, file, edits] ← fields? ["sourceText", "filePath", "edits"] j | none
  return ⟨← required? string? source, ← required? string? file,
    ← required? (list? decodeBatchEdit?) edits⟩

/-! ## Outcomes -/

def decodeFaultKind? : Reader FaultKind := choice? (byName FaultKind.name FaultKind.all)

def decodeStrategy? : Reader Strategy := choice? (byName Strategy.name Strategy.all)

def decodeChangeKind? : Reader ChangeKind := choice? (byName ChangeKind.name ChangeKind.all)

def encodeChange (c : Change) : Json :=
  record [("kind", some (string c.kind.name)), ("path", some (string c.path)),
    ("oldValue", c.old.map string), ("newValue", c.new.map string)]

def decodeChange? : Reader Change := fun j => do
  let [kind, path, old, new] ← fields? ["kind", "path", "oldValue", "newValue"] j | none
  return ⟨← required? decodeChangeKind? kind, ← required? string? path,
    ← optional? string? old, ← optional? string? new⟩

def encodeOutcome (o : Outcome) : Json :=
  record [("success", some (Json.bool o.success)), ("newSourceText", o.newSource.map string),
    ("error", o.error.map string),
    ("errorKind", o.errorKind.map (fun kind => string kind.name)),
    ("changes", some (array (o.changes.map encodeChange))),
    ("strategy", o.strategy.map (fun strategy => string strategy.name))]

def decodeOutcome? : Reader Outcome := fun j => do
  let [success, newSource, error, errorKind, changes, strategy] ←
    fields? ["success", "newSourceText", "error", "errorKind", "changes", "strategy"] j | none
  return ⟨← required? bool? success, ← optional? string? newSource, ← optional? string? error,
    ← optional? decodeFaultKind? errorKind, ← withDefault? (list? decodeChange?) [] changes,
    ← optional? decodeStrategy? strategy⟩

def encodeBatchOutcome (o : BatchOutcome) : Json :=
  record [("success", some (Json.bool o.success)), ("newSourceText", some (string o.newSource)),
    ("results", some (array (o.results.map encodeOutcome))), ("failedAt", o.failedAt.map ofNat)]

def decodeBatchOutcome? : Reader BatchOutcome := fun j => do
  let [success, newSource, results, failedAt] ←
    fields? ["success", "newSourceText", "results", "failedAt"] j | none
  return ⟨← required? bool? success, ← required? string? newSource,
    ← required? (list? decodeOutcome?) results, ← optional? (below? UInt64.size) failedAt⟩

def encodeElementInfo (e : ElementInfo) : Json :=
  record [("path", some (string e.path)), ("stableId", e.stableId.map string),
    ("elementName", some (string e.name)), ("attributes", some (encodeMap e.attributes)),
    ("text", some (string e.text)), ("childCount", some (encodeSize e.childCount)),
    ("line", some (encodeUnit e.line)), ("column", some (encodeUnit e.column)),
    ("depth", some (encodeSize e.depth))]

def decodeElementInfo? : Reader ElementInfo := fun j => do
  let [path, stableId, name, attributes, text, childCount, line, column, depth] ←
    fields? ["path", "stableId", "elementName", "attributes", "text", "childCount", "line",
      "column", "depth"] j | none
  return ⟨← required? string? path, ← optional? string? stableId, ← required? string? name,
    ← required? decodeMap? attributes, ← required? string? text,
    ← required? decodeSize? childCount, ← required? decodeUnit? line,
    ← required? decodeUnit? column, ← required? decodeSize? depth⟩

end MarkupEdit.Wire
