import MarkupEdit.Edit.StructureEdit
import MarkupEdit.Edit.StyleEdit
import MarkupEdit.Edit.TextEdit

/-!
# Operations

Every operation is an edit of the element at a path.

* `Operation.applyWith`: the tree after an operation, and the changes that it made, with a given reader
  of snippets.
* `Operation.apply`: the same with the parser as the reader.
-/

namespace MarkupEdit.Edit

open MarkupEdit.Tree

/-- The tree after an operation on the element at a path, and the changes that it made. Markup that
the operation brings is read by the given reader. -/
def Operation.applyWith (reader : String → Except SyntaxFault SourceTree) (operation : Operation)
    (tree : SourceTree) (path : Path) (config : Config) :
    Except EditFault (SourceTree × List Change) :=
  match operation with
  | .text value => editText tree path value
  | .style change => editStyle tree path change config
  | .setAttribute name value => editAttribute tree path name value config
  | .remove => editRemove tree path
  | .insert snippet position => editInsert reader tree path snippet position
  | .replace markup => editReplace reader tree path markup
  | .wrap name attributes => editWrap tree path name attributes
  | .unwrap => editUnwrap tree path

/-- The tree after an operation on the element at a path, and the changes that it made. -/
def Operation.apply (operation : Operation) (tree : SourceTree) (path : Path) (config : Config) :
    Except EditFault (SourceTree × List Change) :=
  operation.applyWith (parse · .tsx) tree path config

end MarkupEdit.Edit
