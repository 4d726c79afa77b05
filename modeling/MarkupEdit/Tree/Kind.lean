/-!
# Kinds of nodes

A node of a source tree has a kind. The kinds that editing reasons about have a constructor of
their own; every other named kind of the grammar is carried by name, and punctuation and
keywords are tokens.

* `Kind.ofGrammar`: the kind behind a name of the grammar.
* `Kind.grammarName`: the name of a kind; `ofGrammar_grammarName` says that it reads back.
-/

namespace MarkupEdit.Tree

/-- What a node is. -/
inductive Kind where
  | program
  | functionDeclaration
  | functionExpression
  | arrowFunction
  | statementBlock
  | returnStatement
  | parenthesizedExpression
  | jsxElement
  | jsxOpeningElement
  | jsxClosingElement
  | jsxSelfClosingElement
  | jsxAttribute
  | jsxExpression
  | jsxText
  | jsxNamespaceName
  | htmlCharacterReference
  | identifier
  | propertyIdentifier
  | memberExpression
  | string
  | stringFragment
  | escapeSequence
  | templateString
  | templateSubstitution
  | array
  | object
  | pair
  | importStatement
  | exportStatement
  | comment
  | error
  /-- A mark or a keyword. -/
  | token
  /-- A kind that no rule of this library singles out. -/
  | other (name : String)
  deriving DecidableEq, Repr, Inhabited

namespace Kind

/-- The name that the grammar gives a kind. -/
def grammarName : Kind → String
  | program => "program"
  | functionDeclaration => "function_declaration"
  | functionExpression => "function_expression"
  | arrowFunction => "arrow_function"
  | statementBlock => "statement_block"
  | returnStatement => "return_statement"
  | parenthesizedExpression => "parenthesized_expression"
  | jsxElement => "jsx_element"
  | jsxOpeningElement => "jsx_opening_element"
  | jsxClosingElement => "jsx_closing_element"
  | jsxSelfClosingElement => "jsx_self_closing_element"
  | jsxAttribute => "jsx_attribute"
  | jsxExpression => "jsx_expression"
  | jsxText => "jsx_text"
  | jsxNamespaceName => "jsx_namespace_name"
  | htmlCharacterReference => "html_character_reference"
  | identifier => "identifier"
  | propertyIdentifier => "property_identifier"
  | memberExpression => "member_expression"
  | string => "string"
  | stringFragment => "string_fragment"
  | escapeSequence => "escape_sequence"
  | templateString => "template_string"
  | templateSubstitution => "template_substitution"
  | array => "array"
  | object => "object"
  | pair => "pair"
  | importStatement => "import_statement"
  | exportStatement => "export_statement"
  | comment => "comment"
  | error => "ERROR"
  | token => "token"
  | other name => name

/-- The kind of a named node of the grammar. -/
def named (name : String) : Kind :=
  match name with
  | "program" => program
  | "function_declaration" => functionDeclaration
  | "function_expression" => functionExpression
  | "function" => functionExpression
  | "arrow_function" => arrowFunction
  | "statement_block" => statementBlock
  | "return_statement" => returnStatement
  | "parenthesized_expression" => parenthesizedExpression
  | "jsx_element" => jsxElement
  | "jsx_opening_element" => jsxOpeningElement
  | "jsx_closing_element" => jsxClosingElement
  | "jsx_self_closing_element" => jsxSelfClosingElement
  | "jsx_attribute" => jsxAttribute
  | "jsx_expression" => jsxExpression
  | "jsx_text" => jsxText
  | "jsx_namespace_name" => jsxNamespaceName
  | "html_character_reference" => htmlCharacterReference
  | "identifier" => identifier
  | "property_identifier" => propertyIdentifier
  | "member_expression" => memberExpression
  | "string" => string
  | "string_fragment" => stringFragment
  | "escape_sequence" => escapeSequence
  | "template_string" => templateString
  | "template_substitution" => templateSubstitution
  | "array" => array
  | "object" => object
  | "pair" => pair
  | "import_statement" => importStatement
  | "export_statement" => exportStatement
  | "comment" => comment
  | "ERROR" => error
  | _ => other name

/-- The kind behind a name of the grammar; everything that has no name of its own is a token. -/
def ofGrammar (name : String) (isNamed : Bool) : Kind :=
  if isNamed then named name else token

/-- A markup element, with or without children. -/
def isElement : Kind → Bool
  | jsxElement => true
  | jsxSelfClosingElement => true
  | _ => false

/-- A kind that carries an element's name and attributes. -/
def isOpening : Kind → Bool
  | jsxOpeningElement => true
  | jsxSelfClosingElement => true
  | _ => false

/-- A kind whose inner white space is significant: its nodes are leaves that keep the exact text. -/
def isVerbatim : Kind → Bool
  | string => true
  | templateString => true
  | jsxText => true
  | comment => true
  | htmlCharacterReference => true
  | other name => name == "regex"
  | _ => false

/-- A kind that is none of the ones this library singles out. -/
def isOther : Kind → Bool
  | other _ => true
  | _ => false

end Kind

end MarkupEdit.Tree
