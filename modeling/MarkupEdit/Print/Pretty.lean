import MarkupEdit.Text.Blank
import MarkupEdit.Text.Property
import MarkupEdit.Tree.SourceTree

/-!
# Pretty printing

A text for a tree from its structure alone: trivia is left out, comments are kept. Statements go on
lines of their own, blocks and elements are indented by two spaces, a returned element stands in
parentheses. An element with text among its children stays on one line, so that the blanks it shows
do not change.

* `Sheet`: the text written so far, and the separators that are due.
* `pretty`: the text of a tree.
-/

namespace MarkupEdit.Print

open MarkupEdit.Text MarkupEdit.Tree

/-- A text that is being written. -/
structure Sheet where
  /-- What is written, last character first. -/
  written : List Char
  /-- The depth of indentation of new lines. -/
  indent : Nat
  /-- A space is due in front of what comes next. -/
  spaceDue : Bool
  /-- A line break is due in front of what comes next. -/
  breakDue : Bool

namespace Sheet

def empty : Sheet := ⟨[], 0, false, false⟩

/-- Writes characters as they are. -/
def put (sheet : Sheet) (text : List Char) : Sheet :=
  { sheet with written := text.reverse ++ sheet.written }

/-- Starts a new line, unless nothing is written yet. -/
def newline (sheet : Sheet) : Sheet :=
  let kept := sheet.written.dropWhile (· == ' ')
  let broken := if kept.isEmpty then kept else '\n' :: kept
  { sheet with
    written := List.replicate (2 * sheet.indent) ' ' ++ broken
    spaceDue := false
    breakDue := false }

/-- Whether the current line is empty. -/
def atLineStart (sheet : Sheet) : Bool :=
  match sheet.written.dropWhile (· == ' ') with
  | [] => true
  | c :: _ => c == '\n'

def dueSpace (sheet : Sheet) : Sheet := { sheet with spaceDue := true }

def dueBreak (sheet : Sheet) : Sheet := { sheet with breakDue := true }

def indented (sheet : Sheet) : Sheet := { sheet with indent := sheet.indent + 1 }

def outdented (sheet : Sheet) : Sheet := { sheet with indent := sheet.indent - 1 }

def breakIfDue (sheet : Sheet) : Sheet := if sheet.breakDue then sheet.newline else sheet

end Sheet

/-- A character that would merge with a word next to it. -/
def isWordish (c : Char) : Bool := isAlphanumeric c || "_$\"'`".toList.contains c

/-- Whether two characters that meet would be read as one lexeme. -/
def needsSpace : Option Char → Option Char → Bool
  | some prev, some next =>
    (isWordish prev && isWordish next)
      || ((prev == ')' || prev == '\x7d') && isAlphabetic next)
      || (prev == '+' && next == '+')
      || (prev == '-' && next == '-')
      || (prev == '/' && (next == '/' || next == '*'))
  | _, _ => false

namespace Sheet

/-- Writes a lexeme behind the separator that it needs. -/
def lexeme (sheet : Sheet) (text : String) : Sheet :=
  let sheet := sheet.breakIfDue
  let chars := text.toList
  let spaced :=
    if !sheet.atLineStart && (sheet.spaceDue || needsSpace sheet.written.head? chars.head?) then
      sheet.put [' ']
    else sheet
  { spaced.put chars with spaceDue := false }

/-- Writes markup as it is, behind a separator that is due. -/
def raw (sheet : Sheet) (text : String) : Sheet :=
  let sheet := sheet.breakIfDue
  let spaced := if sheet.spaceDue && !sheet.atLineStart then sheet.put [' '] else sheet
  { spaced.put text.toList with spaceDue := false }

/-- The finished text: no blanks at the end but one line break. -/
def finish (sheet : Sheet) : String :=
  String.ofList ((sheet.written.dropWhile isBlank).reverse ++ ['\n'])

end Sheet

/-- Operators that stand between spaces. -/
def spacedOperators : List String :=
  ["=", "+=", "-=", "*=", "/=", "%=", "**=", "&&=", "||=", "??=", "<<=", ">>=", ">>>=", "&=",
   "|=", "^=", "=>", "==", "===", "!=", "!==", "<", ">", "<=", ">=", "+", "-", "*", "/", "%",
   "**", "&&", "||", "??", "&", "|", "^", "<<", ">>", ">>>", "?", ":", "instanceof", "in"]

/-- The kinds in which operators stand between spaces. -/
def operatorParents : List String :=
  ["binary_expression", "assignment_expression", "augmented_assignment_expression",
   "variable_declarator", "ternary_expression", "arrow_function"]

/-- Kinds whose parts go on lines of their own between braces. -/
def isBlockLike (kind : Kind) : Bool :=
  match kind with
  | .statementBlock => true
  | .other name => ["class_body", "interface_body", "switch_body", "enum_body"].contains name
  | _ => false

/-- Text between tags, or a reference in it. -/
def isTextLike (n : Node) : Bool := n.kind == .jsxText || n.kind == .htmlCharacterReference

/-- Blanks between the children of an element that show as a space. -/
def isSignificantGap (leading : String) : Bool :=
  leading != "" && !leading.toList.contains '\n'

/-- What separates a child of an element from the one before it, on one line: a gap without a line
break stays; one with a line break shows only between two runs of text. -/
def markupGap (leading : String) (previousIsText currentIsText : Bool) : String :=
  if leading == "" || isSignificantGap leading then leading
  else if previousIsText && currentIsText then " "
  else ""

/-- The element that a returned value is, whether or not it stands in parentheses. -/
def markupOf? (argument : Node) : Option Node :=
  if argument.kind.isElement then some argument
  else if argument.kind == .parenthesizedExpression then
    match argument.namedChildren with
    | [inner] => if inner.kind.isElement then some inner else none
    | _ => none
  else none

/-- The first child that is neither a token nor a comment, if it is an element. -/
def returnedMarkup? (children : List Node) : Option Node :=
  (children.find? Node.isNamed).bind markupOf?

/-- Writes a leaf; what its parent is decides about the spaces around operators. -/
def leaf (parent : String) (kind : Kind) (text : String) (sheet : Sheet) : Sheet :=
  if kind != .token then sheet.lexeme text
  else if spacedOperators.contains text && operatorParents.contains parent then
    (sheet.dueSpace.lexeme text).dueSpace
  else if text == "," || (text == ":" && parent == "pair") then (sheet.lexeme text).dueSpace
  else if text.toList.all isAlphabetic then (sheet.lexeme text).dueSpace
  else sheet.lexeme text

/-- Writes a comment; a line comment takes the rest of its line. -/
def comment (text : String) (sheet : Sheet) : Sheet :=
  let sheet := sheet.lexeme text
  if text.toList.take 2 == ['/', '/'] then sheet.dueBreak else sheet

/-- Whether a child of a block is one of its braces. -/
def isBrace (n : Node) : Bool := n.isToken "\x7b" || n.isToken "\x7d"

/-- A child of a block that does not begin a line. -/
def isSeparator (n : Node) : Bool := n.isToken ";" || n.isToken ","

/-- Whether an element is written on one line for the sake of the blanks that it shows. -/
def staysInline (children : List Node) : Bool :=
  children.any (fun child =>
    child.kind != .jsxOpeningElement && (isTextLike child || isSignificantGap child.leading))

theorem sizeOf_children_lt (n : Node) : sizeOf n.children < sizeOf n := by
  cases n; simp; omega

theorem sizeOf_le_of_markupOf {n e : Node} (h : markupOf? n = some e) : sizeOf e ≤ sizeOf n := by
  unfold markupOf? at h
  split at h
  · cases h; exact Nat.le_refl _
  · split at h
    · split at h
      · next inner hc =>
        split at h
        · cases h
          have hm : e ∈ n.namedChildren := by rw [hc]; simp
          have hm : e ∈ n.children := (List.mem_filter.mp hm).1
          have := List.sizeOf_lt_of_mem hm
          have := sizeOf_children_lt n
          omega
        · cases h
      · cases h
    · cases h

mutual

/-- Writes a node that stands in a node of the kind `parent`. -/
def node (parent : String) (n : Node) (sheet : Sheet) : Sheet :=
  let kind := n.kind
  let name := kind.grammarName
  if kind == .program then programParts n.children sheet
  else if kind == .returnStatement then
    if (returnedMarkup? n.children).isSome then
      returned n.children ((sheet.lexeme "return").dueSpace)
    else nodes name n.children sheet
  else if kind == .jsxElement then element false n sheet
  else if kind == .jsxSelfClosingElement || kind == .jsxOpeningElement
      || kind == .jsxClosingElement then
    tagParts kind n.children sheet
  else if kind == .jsxText then sheet.raw (n.text.getD "")
  else if kind == .comment then comment (n.text.getD "") sheet
  else if isBlockLike kind then
    if n.children.all isBrace then sheet.dueSpace.lexeme "\x7b\x7d"
    else
      let inner := blockParts name n.children (sheet.dueSpace.lexeme "\x7b").indented
      (inner.outdented.newline).lexeme "\x7d"
  else
    match n.text with
    | some text => leaf parent kind text sheet
    | none => nodes name n.children sheet
termination_by (sizeOf n, 1)
decreasing_by
  all_goals
    have hlt := sizeOf_children_lt n
    omega

/-- Writes the parts of a node one after the other. -/
def nodes (parent : String) (ns : List Node) (sheet : Sheet) : Sheet :=
  match ns with
  | [] => sheet
  | n :: rest => nodes parent rest (node parent n sheet)
termination_by (sizeOf ns, 0)
decreasing_by all_goals (simp_wf; omega)

/-- Writes the parts of a program, each on a line of its own. -/
def programParts (ns : List Node) (sheet : Sheet) : Sheet :=
  match ns with
  | [] => sheet
  | n :: rest =>
    if n.isToken ";" then programParts rest (sheet.lexeme ";")
    else programParts rest (node "program" n sheet.newline)
termination_by (sizeOf ns, 0)
decreasing_by all_goals (simp_wf; omega)

/-- Writes the parts of a block without its braces, each on a line of its own. -/
def blockParts (parent : String) (ns : List Node) (sheet : Sheet) : Sheet :=
  match ns with
  | [] => sheet
  | n :: rest =>
    if isBrace n then blockParts parent rest sheet
    else if isSeparator n then blockParts parent rest (sheet.lexeme (n.text.getD ""))
    else blockParts parent rest (node parent n sheet.newline)
termination_by (sizeOf ns, 0)
decreasing_by all_goals (simp_wf; omega)

/-- Writes the element that a `return` gives back, in parentheses, and what follows it. -/
def returned (ns : List Node) (sheet : Sheet) : Sheet :=
  match ns with
  | [] => sheet
  | n :: rest =>
    if n.isNamed then
      match _h : markupOf? n with
      | some e =>
        let sheet := node "return_statement" e ((sheet.lexeme "(").indented).newline
        nodes "return_statement" rest ((sheet.outdented.newline).lexeme ")")
      | none => nodes "return_statement" rest sheet
    else returned rest sheet
termination_by (sizeOf ns, 0)
decreasing_by
  all_goals first
    | (have hle := sizeOf_le_of_markupOf _h; simp_wf; omega)
    | (simp_wf; omega)

/-- Writes an element, on one line if it must be. -/
def element (isInline : Bool) (n : Node) (sheet : Sheet) : Sheet :=
  let sheet := openingTag n.children sheet
  if isInline || staysInline n.children then inlineParts false n.children sheet
  else
    let body := n.children.filter (fun child =>
      child.kind != .jsxOpeningElement && child.kind != .jsxClosingElement)
    let sheet :=
      if body.isEmpty then sheet
      else (elementParts n.children sheet.indented).outdented.newline
    closingTags n.children sheet
termination_by (sizeOf n, 0)
decreasing_by
  all_goals
    have hlt := sizeOf_children_lt n
    omega

/-- Writes the first opening tag. -/
def openingTag (ns : List Node) (sheet : Sheet) : Sheet :=
  match ns with
  | [] => sheet
  | n :: rest =>
    if n.kind == .jsxOpeningElement then tagParts n.kind n.children sheet
    else openingTag rest sheet
termination_by (sizeOf ns, 0)
decreasing_by
  all_goals
    have hlt := sizeOf_children_lt n
    simp_wf
    omega

/-- Writes the closing tags. -/
def closingTags (ns : List Node) (sheet : Sheet) : Sheet :=
  match ns with
  | [] => sheet
  | n :: rest =>
    if n.kind == .jsxClosingElement then closingTags rest (tagParts n.kind n.children sheet)
    else closingTags rest sheet
termination_by (sizeOf ns, 0)
decreasing_by
  all_goals
    have hlt := sizeOf_children_lt n
    simp_wf
    omega

/-- Writes the children of an element on one line, with the gaps that show. -/
def inlineParts (previousIsText : Bool) (ns : List Node) (sheet : Sheet) : Sheet :=
  match ns with
  | [] => sheet
  | n :: rest =>
    if n.kind == .jsxOpeningElement then inlineParts previousIsText rest sheet
    else
      let sheet := sheet.raw (markupGap n.leading previousIsText (isTextLike n))
      inlineParts (isTextLike n) rest
        (if n.kind == .jsxElement then element true n sheet else node "jsx_element" n sheet)
termination_by (sizeOf ns, 0)
decreasing_by all_goals (simp_wf; omega)

/-- Writes the children of an element, each on a line of its own. -/
def elementParts (ns : List Node) (sheet : Sheet) : Sheet :=
  match ns with
  | [] => sheet
  | n :: rest =>
    if n.kind == .jsxOpeningElement || n.kind == .jsxClosingElement then elementParts rest sheet
    else elementParts rest (node "jsx_element" n sheet.newline)
termination_by (sizeOf ns, 0)
decreasing_by all_goals (simp_wf; omega)

/-- Writes the parts of a tag, attributes behind spaces. -/
def tagParts (tag : Kind) (ns : List Node) (sheet : Sheet) : Sheet :=
  match ns with
  | [] => sheet
  | n :: rest =>
    tagParts tag rest
      (if n.kind == .jsxAttribute then attributeParts n.children (sheet.raw " ")
      else if n.kind == .jsxExpression then node tag.grammarName n (sheet.raw " ")
      else if tag == .jsxSelfClosingElement && (n.isToken "/" || n.isToken "/>") then
        (sheet.raw " ").raw (n.text.getD "")
      else sheet.raw (n.text.getD n.body))
termination_by (sizeOf ns, 0)
decreasing_by
  all_goals
    have hlt := sizeOf_children_lt n
    simp_wf
    omega

/-- Writes the parts of an attribute; an element in it stays on one line. -/
def attributeParts (ns : List Node) (sheet : Sheet) : Sheet :=
  match ns with
  | [] => sheet
  | n :: rest =>
    attributeParts rest
      (if n.kind == .jsxElement then element true n sheet
      else if n.kind == .jsxExpression then node "jsx_attribute" n sheet
      else sheet.raw (n.text.getD n.body))
termination_by (sizeOf ns, 0)
decreasing_by all_goals (simp_wf; omega)

end

/-- The text of a tree by its structure. -/
def pretty (tree : SourceTree) : String := (node "" tree.root Sheet.empty).finish

end MarkupEdit.Print
