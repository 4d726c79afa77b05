import MarkupEdit.Edit.Target

/-!
# Text of an element

An element that shows nothing but literals gets another text. The blanks around the old text stay,
and so do comments.

* `textNodes`: the nodes that show a text.
* `setText`: an element with another text.
-/

namespace MarkupEdit.Edit

open MarkupEdit.Text MarkupEdit.Tree

/-- Braces around comments and nothing else. -/
def isCommentOnly (n : Node) : Bool :=
  n.namedChildren.isEmpty && n.children.any (·.kind == .comment)

/-- Why a child keeps the text of its element from being set, if it does. -/
def textObstacle? (name : String) (child : Node) : Option EditFault :=
  match child.kind with
  | .jsxText | .htmlCharacterReference | .comment => none
  | .jsxElement | .jsxSelfClosingElement => some (.nestedElements name)
  | .jsxExpression =>
    if isCommentOnly child || (bracedText? child).isSome then none
    else some (.evaluatedContent name child.body)
  | _ => some (.evaluatedContent name child.body)

/-- The blanks in front of and behind the old text. -/
structure Edges where
  before : String
  after : String
  deriving DecidableEq, Repr

namespace Edges

/-- The blanks that a text starts with. -/
def blankStart (s : String) : String := String.ofList (s.toList.takeWhile isBlank)

/-- The blanks that a text ends with. -/
def blankEnd (s : String) : String := String.ofList (s.toList.reverse.takeWhile isBlank).reverse

/-- The blanks at the start of the first child and at the end of the last text. One blank text
counts once. -/
def ofContent (content : List Node) : Edges :=
  let texts := content.filter (·.kind == .jsxText)
  let first := content.head?.bind (fun child => if child.kind == .jsxText then child.text else none)
  let isOne := first.isSome && texts.length == 1
  { before := (first.map blankStart).getD ""
    after :=
      if isOne && (first.map allBlank).getD false then ""
      else ((texts.getLast?.bind Node.text).map blankEnd).getD "" }

end Edges

/-- Whether text between tags would not show a text as it is. -/
def needsLiteral (text : String) : Bool :=
  text.toList.any (fun c => "\x7b\x7d<>&\n\r".toList.contains c) || trimmed text != text

/-- The nodes that show a text: text between tags, or a literal in braces where that would not do.
-/
def textNodes (text leading : String) (edges : Edges) : List Node :=
  if text == "" then []
  else if needsLiteral text then
    (Node.markupExpression (.stringLiteral text '"')).withLeading (leading ++ edges.before)
      :: (if edges.after == "" then [] else [.markupText edges.after])
  else [(Node.markupText (edges.before ++ text ++ edges.after)).withLeading leading]

/-- An element with another text. -/
def setText (element : Node) (text : String) : Except EditFault Node :=
  let name := element.elementName?.getD ""
  match element.content.findSome? (textObstacle? name) with
  | some fault => .error fault
  | none =>
    let leading := (element.content.head?.map Node.leading).getD ""
    let nodes := textNodes text leading (.ofContent element.content)
      ++ element.content.filter (fun child => child.kind == .jsxExpression && isCommentOnly child)
    if element.kind == .jsxSelfClosingElement then
      .ok (if nodes.isEmpty then element else element.promote nodes)
    else
      match element.contentRange? with
      | some (start, stop) => .ok (element.splice start stop nodes)
      | none => .error (.unclosed name)

/-- Gives the element at a path another text. -/
def editText (tree : SourceTree) (path : Path) (text : String) :
    Except EditFault (SourceTree × List Change) := do
  let element ← elementAt tree path
  let edited ← setText element text
  return (← placed tree path edited, [.modified path.text (directText element) text])

end MarkupEdit.Edit
