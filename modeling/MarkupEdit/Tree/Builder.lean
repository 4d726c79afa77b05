import MarkupEdit.Text.Property
import MarkupEdit.Tree.Literal

/-!
# Nodes made by edits

Builders of literals, attributes and elements. What they build has no span, and prints as it is.
-/

namespace MarkupEdit.Tree

open MarkupEdit.Text

namespace Node

/-- A string between quotes; backticks make a template. -/
def stringLiteral (value : String) (quote : Char) : Node :=
  leaf (if quote == '`' then .templateString else .string)
    (String.ofList (quote :: (escape quote value.toList ++ [quote])))

/-- A value between braces. -/
def markupExpression (inner : Node) : Node :=
  branch .jsxExpression [token "\x7b", inner.withLeading "", token "\x7d"]

/-- The value of an attribute. Attributes have no escapes, so the quote is one that the value does
not hold; a value with both quotes becomes a string between braces. -/
def attributeValue (value : String) : Node :=
  if !value.toList.contains '"' then leaf .string ("\"" ++ value ++ "\"")
  else if !value.toList.contains '\'' then leaf .string ("'" ++ value ++ "'")
  else markupExpression (stringLiteral value '"')

/-- An attribute; without a value it is only present. -/
def markupAttribute (name : String) (value : Option Node) : Node :=
  (branch .jsxAttribute
    (leaf .propertyIdentifier name ::
      match value with
      | some inner => [token "=", inner.withLeading ""]
      | none => [])).withLeading " "

/-- Text between tags. -/
def markupText (text : String) : Node := leaf .jsxText text

/-- The name of a tag, which a fragment does not have. -/
def tagName (name : String) : List Node :=
  if name == "" then [] else [(leaf .identifier name).withField "name"]

def closingTag (name : String) : Node :=
  (branch .jsxClosingElement ([token "<", token "/"] ++ tagName name ++ [token ">"])).withField
    "close_tag"

/-- The text of the name of an element or a tag. -/
def nameText (n : Node) : String := ((n.childByField? "name").map body).getD ""

/-- A node that marks the end of a tag. -/
def endsTag (n : Node) : Bool := n.isToken "/" || n.isToken ">" || n.isToken "/>"

/-- A self-closing element with children: its name, its attributes and the trivia of both stay. Any
other node is left as it is. -/
def promote (element : Node) (children : List Node) : Node :=
  if element.kind != .jsxSelfClosingElement then element
  else
    let opening :=
      (branch .jsxOpeningElement
        (element.children.filter (fun child => !child.endsTag) ++ [token ">"])).withField
        "open_tag"
    { (branch .jsxElement (opening :: (children ++ [closingTag element.nameText]))) with
      leading := element.leading, field := element.field }

/-- An element around some nodes. -/
def wrapper (name : String) (attributes children : List Node) : Node :=
  let parts := [token "<", (leaf .identifier name).withField "name"] ++ attributes ++ [token ">"]
  let opening := (branch .jsxOpeningElement parts).withField "open_tag"
  branch .jsxElement (opening :: (children ++ [closingTag name]))

/-- A name that needs no quotes as the key of an object. -/
def isPlainKey (key : String) : Bool :=
  match key.toList with
  | [] => false
  | first :: rest =>
    (isAlphabetic first || first == '_' || first == '$')
      && rest.all (fun c => isAlphanumeric c || c == '_' || c == '$')

/-- A key and its value in an object. -/
def objectEntry (key : String) (value : Node) : Node :=
  let keyNode := if isPlainKey key then leaf .propertyIdentifier key else stringLiteral key '"'
  (branch .pair
    [keyNode.withField "key", token ":", (value.withLeading " ").withField "value"]).withLeading " "

/-- Entries with commas between them. -/
def objectEntries : List (String × Node) → List Node
  | [] => []
  | [(key, value)] => [objectEntry key value]
  | (key, value) :: rest => objectEntry key value :: token "," :: objectEntries rest

/-- An object with the given keys and values. -/
def objectLiteral (entries : List (String × Node)) : Node :=
  let close := if entries.isEmpty then token "\x7d" else (token "\x7d").withLeading " "
  branch .object (token "\x7b" :: (objectEntries entries ++ [close]))

end Node

end MarkupEdit.Tree
