import MarkupEdit.Edit.Apply
import MarkupEdit.Edit.LiteralSource
import MarkupEdit.Edit.Locator
import MarkupEdit.Print.Render
import MarkupEdit.Text.Lines
import MarkupEdit.Tree.Cache

/-!
# Editing files

Every call takes the tree of a file from the cache, works on it, and checks that what comes out
parses. The tree of the new text goes into the cache for the next call.

* `transform`: one edit of a file.
* `batch`: edits of a file in a row.
* `findNodes`: the elements of a file.
-/

namespace MarkupEdit.Edit

open MarkupEdit.Text MarkupEdit.Tree MarkupEdit.Print

/-- Edits the literal that holds the text of a hint, for an operation that sets a text. Any other
operation fails as it did before. -/
def editLiteral (config : Config) (tree : SourceTree) (criteria : Criteria) (operation : Operation)
    (fault : EditFault) : Except EditFault (SourceTree × Change) :=
  match operation, criteria.byText with
  | .text value, some hint =>
    if fault.kind != .nodeNotFound || !config.literals.enabled then .error fault
    else
      match findLiteral? tree hint.text config with
      | some found => replaceLiteral tree found value config
      | none => .error fault
  | _, _ => .error fault

/-- An edited tree, what changed in it, and how the place was found. -/
structure Edited where
  tree : SourceTree
  changes : List Change
  strategy : Strategy

/-- Finds the target in a tree and edits it. -/
def editTree (config : Config) (tree : SourceTree) (request : Request) : Except EditFault Edited :=
  match locate tree request.source config request.locator with
  | .ok (path, strategy) =>
    (request.operation.apply tree path config).map (fun (tree, changes) =>
      ⟨tree, changes, strategy⟩)
  | .error fault =>
    (editLiteral config tree request.locator request.operation fault).map (fun (tree, change) =>
      ⟨tree, [change], .dataSource⟩)

/-- One edit of a file. A failure leaves the text as it is. -/
def transform (config : Config) (cache : ParseCache) (request : Request) : ParseCache × Outcome :=
  let (cache, parsed) := cache.parse request.source request.file
  match parsed with
  | .error fault => (cache, .failed (.tree fault))
  | .ok tree =>
    match editTree config tree request with
    | .error fault => (cache, .failed fault)
    | .ok edited =>
      match render edited.tree with
      | .error fault => (cache, .failed (.tree fault))
      | .ok rendered =>
        (cache.store request.file rendered.text rendered.tree,
          .succeeded rendered.text edited.changes edited.strategy)

/-- Edits in a row, counted from a number on, up to the first that fails. -/
def batchFrom (config : Config) (file : String) (cache : ParseCache) (index : Nat)
    (source : String) : List BatchEdit → ParseCache × BatchOutcome
  | [] => (cache, ⟨true, source, [], none⟩)
  | edit :: rest =>
    let (cache, outcome) := transform config cache ⟨source, file, edit.locator, edit.operation⟩
    let source := outcome.newSource.getD source
    if outcome.success then
      let (cache, tail) := batchFrom config file cache (index + 1) source rest
      (cache, { tail with results := outcome :: tail.results })
    else (cache, ⟨false, source, [outcome], some index⟩)

/-- Edits of a file in a row. What was done before a failure stays. -/
def batch (config : Config) (cache : ParseCache) (request : BatchRequest) :
    ParseCache × BatchOutcome :=
  batchFrom config request.file cache 0 request.source request.edits

/-- The number of UTF-16 units of a text. -/
def utf16Length (s : List Char) : Nat := total utf16Size s

/-- The greatest number of 32 bits. -/
def greatest32 : Nat := 4294967295

/-- The line of an offset, counted from one, and its column in UTF-16 units, counted from zero. -/
def startPosition (source : List Char) (index : LineIndex) (offset : Nat) : UInt32 × UInt32 :=
  let row := index.lineOf offset
  let column := match index.starts[row]? with
    | some start => utf16Length (bytesBetween start offset source)
    | none => 0
  (UInt32.ofNat (min (row + 1) greatest32), UInt32.ofNat (min column greatest32))

/-- An element as it is listed. -/
def Element.info (source : List Char) (index : LineIndex) (element : Element) : ElementInfo :=
  let (line, column) := match element.span with
    | some span => startPosition source index span.startByte
    | none => (0, 0)
  { path := element.path.text
    stableId := element.stableId
    name := element.name
    attributes := element.attributes
    text := element.text
    childCount := UInt64.ofNat element.childCount
    line := line
    column := column
    depth := UInt64.ofNat element.depth }

/-- The named elements of a file, in the order of the document. -/
def findNodes (config : Config) (cache : ParseCache) (source file : String) :
    ParseCache × Except EditFault (List ElementInfo) :=
  let (cache, parsed) := cache.parse source file
  let s := source.toList
  let index := LineIndex.ofText s
  (cache, match parsed with
    | .error fault => .error (.tree fault)
    | .ok tree => .ok ((listElements tree config).map (Element.info s index)))

end MarkupEdit.Edit
