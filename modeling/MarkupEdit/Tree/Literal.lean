import MarkupEdit.Text.Blank
import MarkupEdit.Text.Digits
import MarkupEdit.Tree.Node

/-!
# Literals

What quoted texts, templates and the text of markup stand for.

* `escape`, `unescape`: a text between quotes, and what it stands for.
* `staticValue?`: the value of a literal that needs no evaluation.
* `visibleText`: what the text between tags shows.
-/

namespace MarkupEdit.Tree

open MarkupEdit.Text

/-- A text as it is written between quotes. A template keeps line breaks and tabs, but must not
open a substitution. -/
def escape (quote : Char) : List Char → List Char
  | [] => []
  | c :: s =>
    if c == '\\' then '\\' :: '\\' :: escape quote s
    else if c == '\n' && quote != '`' then '\\' :: 'n' :: escape quote s
    else if c == '\r' then '\\' :: 'r' :: escape quote s
    else if c == '\t' && quote != '`' then '\\' :: 't' :: escape quote s
    else if c == '\u2028' then "\\u2028".toList ++ escape quote s
    else if c == '\u2029' then "\\u2029".toList ++ escape quote s
    else if c == '$' && quote == '`' && s.head? == some '\x7b' then
      '\\' :: '$' :: escape quote s
    else if c == quote then '\\' :: c :: escape quote s
    else c :: escape quote s

/-- The character of a code point; what is none becomes the replacement character. -/
def codePoint (digits : List Char) : Char :=
  ((baseValue? 16 digits).bind scalar?).getD '\ufffd'

/-- What a reader of escapes is in the middle of. -/
inductive EscapeState where
  | plain
  | escaped
  /-- Behind an escaped carriage return, where a line feed belongs to it. -/
  | lineEnd
  /-- In a code point of so many more digits; those seen are listed last first. -/
  | digits (missing : Nat) (seen : List Char)
  /-- Behind an escaped `u`. -/
  | unicode
  /-- In a code point between braces. -/
  | braced (seen : List Char)

/-- What a text between quotes stands for, read from a state on. -/
def unescapeFrom : EscapeState → List Char → List Char
  | .plain, [] => []
  | .escaped, [] => ['\\']
  | .lineEnd, [] => []
  | .digits _ seen, [] => [codePoint seen.reverse]
  | .unicode, [] => [codePoint []]
  | .braced seen, [] => [codePoint seen.reverse]
  | .plain, c :: s =>
    if c == '\\' then unescapeFrom .escaped s else c :: unescapeFrom .plain s
  | .escaped, c :: s =>
    if c == 'n' then '\n' :: unescapeFrom .plain s
    else if c == 't' then '\t' :: unescapeFrom .plain s
    else if c == 'r' then '\r' :: unescapeFrom .plain s
    else if c == 'b' then '\x08' :: unescapeFrom .plain s
    else if c == 'f' then '\x0c' :: unescapeFrom .plain s
    else if c == 'v' then '\x0b' :: unescapeFrom .plain s
    else if c == '0' then '\x00' :: unescapeFrom .plain s
    else if c == '\n' || c == '\u2028' || c == '\u2029' then unescapeFrom .plain s
    else if c == '\r' then unescapeFrom .lineEnd s
    else if c == 'x' then unescapeFrom (.digits 2 []) s
    else if c == 'u' then unescapeFrom .unicode s
    else c :: unescapeFrom .plain s
  | .lineEnd, c :: s =>
    if c == '\n' then unescapeFrom .plain s
    else if c == '\\' then unescapeFrom .escaped s
    else c :: unescapeFrom .plain s
  | .digits missing seen, c :: s =>
    if missing ≤ 1 then codePoint (c :: seen).reverse :: unescapeFrom .plain s
    else unescapeFrom (.digits (missing - 1) (c :: seen)) s
  | .unicode, c :: s =>
    if c == '\x7b' then unescapeFrom (.braced []) s else unescapeFrom (.digits 3 [c]) s
  | .braced seen, c :: s =>
    if c == '\x7d' then codePoint seen.reverse :: unescapeFrom .plain s
    else unescapeFrom (.braced (c :: seen)) s

/-- What a text between quotes stands for. Unknown escapes stand for the escaped character. -/
def unescape (s : List Char) : List Char := unescapeFrom .plain s

/-- The quote of a string or a template. -/
def Node.quote? (n : Node) : Option Char :=
  if n.kind == .string || n.kind == .templateString then
    n.text.bind (fun text => text.toList.head?)
  else none

/-- The text between two equal characters at the ends. -/
def betweenQuotes? : List Char → Option (List Char)
  | [] => none
  | first :: rest =>
    match rest.getLast? with
    | none => none
    | some last => if first == last then some rest.dropLast else none

/-- Whether a template holds a substitution. -/
def hasSubstitution : List Char → Bool
  | [] => false
  | ['\\'] => false
  | '\\' :: _ :: s => hasSubstitution s
  | '$' :: '\x7b' :: _ => true
  | _ :: s => hasSubstitution s

/-- The value of a literal that needs no evaluation: a string, or a template without
substitutions. -/
def Node.staticValue? (n : Node) : Option String :=
  match n.text with
  | none => none
  | some text =>
    match betweenQuotes? text.toList with
    | none => none
    | some inner =>
      if n.kind == .string || (n.kind == .templateString && !hasSubstitution inner) then
        some (String.ofList (unescape inner))
      else none

/-! ## Text of markup -/

/-- The lines of the text between tags as they show: cut where they meet a line break. -/
def visibleLines (isFirst : Bool) : List (List Char) → List (List Char)
  | [] => []
  | line :: rest =>
    let line := dropWhileEnd (· == '\r') line
    let line := if isFirst then line else dropBlank line
    let line := if rest.isEmpty then line else dropBlankEnd line
    line :: visibleLines false rest

/-- What the text between tags shows: lines without anything in them disappear, and the others are
joined by single spaces. -/
def visibleChars (s : List Char) : List Char :=
  List.intercalate [' ']
    ((visibleLines true (splitAtEach (· == '\n') s)).filter (fun line => !line.isEmpty))

def visibleText (s : String) : String := String.ofList (visibleChars s.toList)

end MarkupEdit.Tree
