import MarkupEdit.Edit.Config
import MarkupEdit.Edit.Outcome
import MarkupEdit.Text.Reference
import MarkupEdit.Tree.Literal
import MarkupEdit.Tree.SourceTree

/-!
# Elements

What an element says about itself: its name, its attributes, its classes and the text it shows. An
element has an opening tag, content and a closing tag, or it closes itself. A fragment has no name.

* `Node.content`: the children between the tags.
* `Node.attributeValue?`: what an attribute holds.
* `Node.directText`: the text that an element shows itself.
* `listElements`: all elements of a tree, in the order of the document.
-/

namespace MarkupEdit.Tree.Node

open MarkupEdit.Text

/-- The node that carries the name and the attributes of an element. -/
def opening? (n : Node) : Option Node :=
  match n.kind with
  | .jsxSelfClosingElement => some n
  | .jsxElement => n.childOfKind? .jsxOpeningElement
  | _ => none

/-- The name of an element; a fragment has none. -/
def elementName? (n : Node) : Option String :=
  n.opening?.bind (fun opening => (opening.childByField? "name").map body)

def isNamedElement (n : Node) : Bool := n.kind.isElement && n.elementName?.isSome

/-- The first index of the content of an element, and the index of its closing tag. -/
def contentRange? (n : Node) : Option (Nat × Nat) :=
  if n.kind != .jsxElement then none
  else
    match n.children.findIdx? (·.kind == .jsxOpeningElement),
        n.children.reverse.findIdx? (·.kind == .jsxClosingElement) with
    | some opening, some fromEnd =>
      let closing := n.children.length - 1 - fromEnd
      if opening + 1 ≤ closing then some (opening + 1, closing) else none
    | _, _ => none

/-- The children between the tags. -/
def content (n : Node) : List Node :=
  match n.contentRange? with
  | some (start, stop) => (n.children.take stop).drop start
  | none => []

/-- The name of an attribute. -/
def attributeName? (n : Node) : Option String := n.children.head?.map body

/-- The value behind the equals sign of an attribute. -/
def attributeValueNode? (n : Node) : Option Node :=
  ((n.children.dropWhile (fun child => !child.isToken "=")).drop 1).head?

/-- Whether a child of an opening tag is the attribute with a name. -/
def isAttribute (name : String) (n : Node) : Bool :=
  n.kind == .jsxAttribute && n.attributeName? == some name

end MarkupEdit.Tree.Node

namespace MarkupEdit.Edit

open MarkupEdit.Text MarkupEdit.Tree

/-- What an attribute holds. -/
inductive AttributeContent where
  /-- No value at all. -/
  | present
  /-- A text that is known without evaluation. -/
  | static (value : String)
  /-- Something to evaluate, by its source. -/
  | evaluated (source : String)
  deriving DecidableEq, Repr

namespace AttributeContent

/-- What is shown for an attribute. -/
def shown : AttributeContent → String
  | present => "true"
  | static value => value
  | evaluated source => source

def static? : AttributeContent → Option String
  | static value => some value
  | _ => none

end AttributeContent

/-- The text of a literal that is all there is between braces. -/
def bracedText? (n : Node) : Option String :=
  match n.namedChildren with
  | [literal] => literal.staticValue?
  | _ => none

/-- The text without its first and its last character. -/
def withoutEnds (s : List Char) : List Char := (s.drop 1).dropLast

/-- What an attribute holds. A quoted value has references but no escapes. -/
def attributeContent (n : Node) : AttributeContent :=
  match n.attributeValueNode? with
  | none => .present
  | some value =>
    match value.kind with
    | .string =>
      .static (String.ofList (decodeReferences (withoutEnds (value.text.getD "").toList)))
    | .jsxExpression =>
      match bracedText? value with
      | some text => .static text
      | none => .evaluated value.body
    | _ => .evaluated value.body

/-- What an element holds in an attribute. -/
def attributeOf? (element : Node) (name : String) : Option AttributeContent :=
  element.opening?.bind fun opening =>
    (opening.children.find? (Node.isAttribute name)).map attributeContent

/-- The classes of an element, from the first class attribute that it has. -/
def classesOf? (element : Node) (config : Config) : Option String :=
  (config.classAttributes.findSome? (attributeOf? element)).bind AttributeContent.static?

/-- A text with single spaces for its blanks, and none at its ends. -/
def normalized (s : String) : String := " ".intercalate (words s)

/-- What a child of an element adds to the text. Elements and values to evaluate count as blanks. -/
def textPiece (child : Node) : String :=
  match child.kind with
  | .jsxText | .htmlCharacterReference =>
    child.leading ++ String.ofList (decodeReferences (child.text.getD "").toList)
  | .jsxExpression => child.leading ++ (bracedText? child).getD " "
  | _ => " "

/-- The text that an element shows itself. -/
def directText (element : Node) : String :=
  normalized (String.join (element.content.map textPiece))

/-- An element with everything by which it is found and listed. -/
structure Element where
  path : Path
  depth : Nat
  name : String
  stableId : Option String
  classes : Option String
  attributes : TextMap
  text : String
  childCount : Nat
  span : Option Span

namespace Element

/-- The names and the values of the attributes of an element. -/
def attributeMap (element : Node) : TextMap :=
  match element.opening? with
  | none => TextMap.empty
  | some opening =>
    TextMap.ofList ((opening.children.filter (·.kind == .jsxAttribute)).filterMap fun child =>
      child.attributeName?.map (fun name => (name, (attributeContent child).shown)))

/-- A named element with what it says about itself. -/
def ofFound? (config : Config) (found : Found) : Option Element :=
  found.node.elementName?.map fun name =>
    { path := found.place.path
      depth := found.place.depth
      name := name
      stableId := (attributeOf? found.node config.idAttribute).bind AttributeContent.static?
      classes := classesOf? found.node config
      attributes := attributeMap found.node
      text := directText found.node
      childCount := (found.node.content.filter (·.kind != .comment)).length
      span := found.node.span }

end Element

/-- The named elements of a tree, in the order of the document. -/
def listElements (tree : SourceTree) (config : Config) : List Element :=
  (collect tree.root config.maxDepth Node.isNamedElement).filterMap (Element.ofFound? config)

end MarkupEdit.Edit
