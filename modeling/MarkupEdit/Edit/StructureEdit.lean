import MarkupEdit.Edit.AttributeEdit
import MarkupEdit.Tree.Snippet

/-!
# Structure around an element

Elements are removed, inserted, replaced, wrapped and unwrapped. Siblings come and go only between
the tags of an element or a fragment. An element that is all there is in an expression can be
replaced in its place, but has no siblings.

* `editRemove`, `editInsert`, `editReplace`, `editWrap`, `editUnwrap`: the edits. Those with a snippet
  take the reader of whole texts that reads it.
-/

namespace MarkupEdit.Edit

open MarkupEdit.Text MarkupEdit.Tree

/-- The place of a node between the tags of its parent. -/
def markupSlot? (tree : SourceTree) (path : Path) : Option (Path × Nat) :=
  match path.parent?, path.getLast? with
  | some parent, some index =>
    match tree.get parent with
    | some node => if node.kind == .jsxElement then some (parent, index) else none
    | none => none
  | _, _ => none

def requireSlot (tree : SourceTree) (path : Path) (action : String) :
    Except EditFault (Path × Nat) :=
  match markupSlot? tree path with
  | some slot => .ok slot
  | none => .error (.noMarkupParent action path)

/-- The nodes without blank text at both ends. -/
def trimBlank (nodes : List Node) : List Node :=
  ((nodes.dropWhile Node.isBlankText).reverse.dropWhile Node.isBlankText).reverse

/-- The tree with others in place of the children of a node between two indices. -/
def spliced (tree : SourceTree) (parent : Path) (start stop : Nat) (nodes : List Node) :
    Except EditFault SourceTree :=
  match tree.root.update? (fun n => some (n.splice start stop nodes)) parent with
  | some root => .ok { tree with root := root }
  | none => .error (.tree (.invalidPath parent.text "no node at path"))

/-- Nodes of which the first has another leading trivia. -/
def withFirstLeading (leading : String) : List Node → List Node
  | [] => []
  | first :: rest => first.withLeading leading :: rest

/-- Removes the element at a path. -/
def editRemove (tree : SourceTree) (path : Path) : Except EditFault (SourceTree × List Change) := do
  let _ ← elementAt tree path
  let _ ← requireSlot tree path "remove"
  match tree.remove path with
  | .ok (edited, removed) => return (edited, [.removed path.text removed.body])
  | .error fault => throw (.tree fault)

/-! ## Inserting -/

/-- Where nodes are inserted, and the trivia that the first of them gets. -/
structure InsertionPoint where
  parent : Path
  index : Nat
  leading : String
  deriving DecidableEq, Repr

/-- The place in front of an element or behind it. -/
def siblingPoint (tree : SourceTree) (path : Path) (target : Node) (isAfter : Bool) :
    Except EditFault InsertionPoint := do
  let (parent, index) ← requireSlot tree path "insert next to"
  return ⟨parent, if isAfter then index + 1 else index, target.leading⟩

/-- The place in front of the content of an element or behind it. -/
def childPoint (path : Path) (target : Node) (isLast : Bool) : Except EditFault InsertionPoint :=
  match target.contentRange? with
  | none => .error (.noContent path)
  | some (start, stop) =>
    let neighbour := if isLast then target.content.getLast? else target.content.head?
    .ok ⟨path, if isLast then stop else start, (neighbour.map Node.leading).getD ""⟩

/-- The place at a position of an element, and the tree that has it. An element that closes itself
gets a closing tag to hold children. -/
def insertionPoint (tree : SourceTree) (path : Path) (target : Node) (position : InsertPosition) :
    Except EditFault (SourceTree × InsertionPoint) :=
  let opened := target.promote []
  match position with
  | .before => return (tree, ← siblingPoint tree path target false)
  | .after => return (tree, ← siblingPoint tree path target true)
  | .firstChild => return (← placed tree path opened, ← childPoint path opened false)
  | .lastChild => return (← placed tree path opened, ← childPoint path opened true)

/-- The markup of a snippet, without blank text at its ends. -/
def snippetNodes (reader : String → Except SyntaxFault SourceTree) (snippet : String) :
    Except EditFault (List Node) :=
  match readSnippet reader snippet with
  | .ok nodes => .ok (trimBlank nodes)
  | .error fault => .error (.tree fault)

/-- The changes that inserting some nodes makes; blank text is not reported. -/
def insertReport (parent : Path) (index : Nat) : List Node → List Change
  | [] => []
  | node :: rest =>
    (if node.isBlankText then [] else [.added (parent.child index).text node.body])
      ++ insertReport parent (index + 1) rest

/-- Inserts the markup of a snippet. -/
def editInsert (reader : String → Except SyntaxFault SourceTree) (tree : SourceTree) (path : Path)
    (snippet : String) (position : InsertPosition) :
    Except EditFault (SourceTree × List Change) := do
  let target ← elementAt tree path
  let nodes ← snippetNodes reader snippet
  let (tree, point) ← insertionPoint tree path target position
  let nodes := withFirstLeading point.leading nodes
  return (← spliced tree point.parent point.index point.index nodes,
    insertReport point.parent point.index nodes)

/-! ## In place -/

/-- Puts a node in the place of the element at a path. -/
def replaceElement (tree : SourceTree) (path : Path) (element node : Node) :
    Except EditFault (SourceTree × List Change) :=
  let replacement := inPlaceOf node element
  (placed tree path replacement).map (fun edited =>
    (edited, [.modified path.text element.body replacement.body]))

/-- Replaces the element at a path by the one element of a snippet. -/
def editReplace (reader : String → Except SyntaxFault SourceTree) (tree : SourceTree) (path : Path)
    (markup : String) : Except EditFault (SourceTree × List Change) := do
  let element ← elementAt tree path
  match readElement reader markup with
  | .error fault => throw (.tree fault)
  | .ok node => replaceElement tree path element node

/-- A part of the name of an element. -/
def isNamePart (part : List Char) : Bool :=
  match part with
  | [] => false
  | first :: rest =>
    (isAsciiLetter first || first == '_' || first == '$')
      && rest.all (fun c => isAsciiAlphanumeric c || c == '_' || c == '$' || c == '-')

/-- Names of elements: identifiers, with dots or colons between them. -/
def isElementName (name : String) : Bool :=
  name != "" && (splitAtEach (fun c => c == '.' || c == ':') name.toList).all isNamePart

/-- An attribute of a wrapper. -/
def wrapperAttribute (entry : String × String) : Except EditFault Node :=
  if isAttributeName entry.1 then
    .ok (.markupAttribute entry.1 (some (.attributeValue entry.2)))
  else .error (.attributeName entry.1)

/-- Puts the element at a path into a new one. -/
def editWrap (tree : SourceTree) (path : Path) (name : String) (attributes : TextMap) :
    Except EditFault (SourceTree × List Change) := do
  if !isElementName name then throw (.elementName name)
  let built ← attributes.entries.mapM wrapperAttribute
  let element ← elementAt tree path
  replaceElement tree path element (.wrapper name built [element.withLeading ""])

/-! ## Unwrapping -/

/-- Text between tags, changed; any other node stays. -/
def retext (change : List Char → List Char) (node : Node) : Node :=
  if node.kind == .jsxText then
    (Node.markupText (String.ofList (change (node.text.getD "").toList))).withLeading node.leading
  else node

/-- The nodes without the blanks that the text at both ends has on the outside. -/
def trimEdges (nodes : List Node) : List Node :=
  let nodes := nodes.modifyHead (retext dropBlank)
  nodes.modify (nodes.length - 1) (retext dropBlankEnd)

/-- Puts the content of the element at a path in its place. Where there is no markup around it, the
content must be one element. -/
def editUnwrap (tree : SourceTree) (path : Path) : Except EditFault (SourceTree × List Change) := do
  let element ← elementAt tree path
  let name := element.elementName?.getD ""
  if element.kind == .jsxSelfClosingElement then throw (.nothingToUnwrap name)
  else
    let inner := trimBlank (element.content.filter (·.kind != .comment))
    match markupSlot? tree path with
    | some (parent, index) =>
      let nodes := withFirstLeading element.leading (trimEdges inner)
      return (← spliced tree parent index (index + 1) nodes,
        [.modified path.text element.body
          (String.ofList (dropBlank (String.join (nodes.map Node.full)).toList))])
    | none =>
      match inner with
      | [only] =>
        if only.kind.isElement then replaceElement tree path element only
        else throw (.severalToUnwrap name)
      | _ => throw (.severalToUnwrap name)

end MarkupEdit.Edit
