import MarkupEdit.Style.Length
import MarkupEdit.Text.Casing

/-!
# Declarations

Declarations of inline styles: a property, written with hyphens, and a value.

* `camelCase`, `kebabCase`: the two spellings of the name of a property.
* `Declaration.parse`: one declaration.
* `parseInline`: the declarations of a `style` attribute.
-/

namespace MarkupEdit.Style

open MarkupEdit.Text

/-- The word with its first letter made a capital. -/
def capitalized : List Char → List Char
  | [] => []
  | c :: s => upperChar c ++ s

/-- A name with hyphens as one word with capitals inside. A custom property (`--gap`) keeps its
name, and a vendor's hyphen in front makes the first letter a capital too. -/
def camelChars (s : List Char) : List Char :=
  match s with
  | '-' :: '-' :: _ => s
  | _ =>
    match splitAtEach (· == '-') (s.dropWhile (· == '-')) with
    | [] => []
    | first :: rest =>
      (if s.head? == some '-' then capitalized first else first)
        ++ rest.flatMap capitalized

def camelCase (s : String) : String := String.ofList (camelChars s.toList)

/-- A name with capitals as words with hyphens between them. A name that has hyphens already is only
made small. -/
def kebabChars (s : List Char) : List Char :=
  if s.contains '-' then s.map Char.toLower
  else s.flatMap (fun c => if c.isUpper then ['-', c.toLower] else [c])

def kebabCase (s : String) : String := String.ofList (kebabChars s.toList)

/-- A property and its value. -/
structure Declaration where
  /-- The name of the property, with hyphens. -/
  property : String
  value : String
  deriving DecidableEq, Repr

/-- Why a text holds no declarations. -/
inductive StyleFault where
  /-- No colon separates property and value. -/
  | malformed (text : String)
  /-- No property stands in front of the colon. -/
  | emptyProperty (text : String)
  deriving DecidableEq, Repr

def StyleFault.message : StyleFault → String
  | malformed text =>
    "malformed style declaration '" ++ text ++ "': expected 'property: value'"
  | emptyProperty text => "style declaration '" ++ text ++ "' has an empty property name"

namespace Declaration

/-- The declaration of a value for a property, both without blanks around them. -/
def make (property value : String) : Declaration :=
  ⟨kebabCase (trimmed property), trimmed value⟩

/-- The name of the property as a key of a style object. -/
def camelProperty (d : Declaration) : String := camelCase d.property

/-- One declaration, split at its first colon. -/
def parseChars (s : List Char) : Except StyleFault Declaration :=
  match splitFirst? (· == ':') s with
  | none => .error (.malformed (String.ofList (trim s)))
  | some (property, value) =>
    if property.all isBlank then .error (.emptyProperty (String.ofList (trim s)))
    else .ok (make (String.ofList property) (String.ofList value))

def parse (s : String) : Except StyleFault Declaration := parseChars s.toList

end Declaration

/-- Whether a semicolon ends a declaration: not inside quotes or parentheses. -/
structure Nesting where
  depth : Nat
  quote : Option Char
  deriving DecidableEq, Repr

namespace Nesting

def outside : Nesting := ⟨0, none⟩

/-- The nesting behind one more character. -/
def next (n : Nesting) (c : Char) : Nesting :=
  match n.quote with
  | some quote => if c == quote then { n with quote := none } else n
  | none =>
    if c == '"' || c == '\'' then { n with quote := some c }
    else if c == '(' then { n with depth := n.depth + 1 }
    else if c == ')' then { n with depth := n.depth - 1 }
    else n

/-- Whether a character is a semicolon that ends a declaration. -/
def ends (n : Nesting) (c : Char) : Bool := c == ';' && n.quote.isNone && n.depth == 0

end Nesting

/-- The pieces of a text between the semicolons that end declarations. -/
def declarationTexts (nesting : Nesting) : List Char → List (List Char)
  | [] => [[]]
  | c :: s =>
    if nesting.ends c then [] :: declarationTexts nesting s
    else
      match declarationTexts (nesting.next c) s with
      | [] => [[c]]
      | piece :: rest => (c :: piece) :: rest

/-- The declarations of a style text, without the empty ones. -/
def parseInline (s : String) : Except StyleFault (List Declaration) :=
  ((declarationTexts .outside s.toList).filter (fun piece => !piece.all isBlank)).mapM
    Declaration.parseChars

end MarkupEdit.Style
