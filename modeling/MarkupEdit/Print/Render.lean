import MarkupEdit.Print.Pretty
import MarkupEdit.Tree.Parse

/-!
# Checked printing

A tree is written with all its trivia, and the text is read again before it is given out. If it
does not parse, which an edit can bring about, the text made from the structure alone is tried.

* `render`: the text of a tree, the tree that it parses to, and the printer that wrote it.
-/

namespace MarkupEdit.Print

open MarkupEdit.Tree

/-- Which text was given out. -/
inductive Printer where
  /-- The text with all trivia. -/
  | lossless
  /-- The text made from the structure. -/
  | fallback
  deriving DecidableEq, Repr

/-- A text that parses. -/
structure Rendered where
  text : String
  /-- The tree of `text`. -/
  tree : SourceTree
  printer : Printer

/-- A text for a tree that parses, if there is one. -/
def render (tree : SourceTree) : Except SyntaxFault Rendered :=
  match parse tree.toSource tree.language with
  | .ok reread => .ok ⟨tree.toSource, reread, .lossless⟩
  | .error fault =>
    match parse (pretty tree) tree.language with
    | .ok reread => .ok ⟨pretty tree, reread, .fallback⟩
    | .error fallbackFault =>
      .error (.print tree.language
        ("output does not parse (" ++ fault.message ++ "); fallback also failed ("
          ++ fallbackFault.message ++ ")"))

end MarkupEdit.Print
