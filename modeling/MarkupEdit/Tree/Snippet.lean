import MarkupEdit.Text.Blank
import MarkupEdit.Tree.Parse

/-!
# Snippets

Markup that somebody hands in is read between the tags of a fragment. The fragment must come back
whole, so that a snippet cannot close it and go on with something else.

* `readSnippet`: the nodes of a snippet, without spans, with a given reader of whole texts.
* `readElement`: the one element of a snippet.
* `parseSnippet`, `parseElement`: the same with the parser as the reader.
-/

namespace MarkupEdit.Tree

open MarkupEdit.Text

/-- Markup text that holds nothing but blanks. -/
def Node.isBlankText (n : Node) : Bool :=
  n.kind == .jsxText && (n.text.map allBlank).getD false

/-- The fragment that is all there is in a program, if its text is the expected one. -/
def singleFragment? (root : Node) (expected : String) : Option Node :=
  match root.namedChildren with
  | [statement] =>
    match statement.namedChildren.head? with
    | none => none
    | some expression =>
      match expression.childOfKind? .jsxOpeningElement with
      | none => none
      | some opening =>
        if expression.kind == .jsxElement && (opening.childByField? "name").isNone
            && expression.body == expected then
          some expression
        else none
  | _ => none

section

variable (reader : String → Except SyntaxFault SourceTree)

/-- The nodes of a snippet, which is read as a whole text inside a fragment. Blank text between them is
kept. -/
def readSnippet (snippet : String) : Except SyntaxFault (List Node) :=
  if allBlank snippet then .error (.invalidSnippet "snippet is empty")
  else
    match reader ("<>" ++ snippet ++ "</>;") with
    | .error fault => .error (.invalidSnippet fault.message)
    | .ok tree =>
      match singleFragment? tree.root ("<>" ++ snippet ++ "</>") with
      | none => .error (.invalidSnippet "snippet escapes its fragment wrapper")
      | some fragment =>
        let inner := fragment.children.filter (fun child =>
          child.kind != .jsxOpeningElement && child.kind != .jsxClosingElement)
        if inner.isEmpty then .error (.invalidSnippet "snippet contains no markup")
        else .ok (inner.map Node.detached)

/-- The element of a snippet that holds nothing else but blanks around it. -/
def readElement (snippet : String) : Except SyntaxFault Node :=
  match readSnippet reader snippet with
  | .error fault => .error fault
  | .ok nodes =>
    match nodes.filter (fun node => !node.isBlankText) with
    | [node] =>
      if node.kind.isElement then .ok (node.withLeading "")
      else .error (.invalidSnippet "expected exactly one element in snippet")
    | _ => .error (.invalidSnippet "expected exactly one element in snippet")

end

/-- The nodes of a snippet of markup. -/
def parseSnippet : String → Except SyntaxFault (List Node) := readSnippet (parse · .tsx)

/-- The one element of a snippet of markup. -/
def parseElement : String → Except SyntaxFault Node := readElement (parse · .tsx)

end MarkupEdit.Tree
