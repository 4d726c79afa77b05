import MarkupEdit.Text.Ascii
import MarkupEdit.Text.Digits

/-!
# Lexemes

Which texts can be read in one go. A scanner looks at the start of a text and answers how many
characters belong to the lexeme there, or that there is none.

* `Lexical.length?`: the length of the lexeme of a set at the start of a text.
* `blankLength`, `commentLength?`: the blanks and the comment at the start of a text.
* `lineEnd`: whether a statement may end here without a mark.
-/

namespace MarkupEdit.Grammar

open MarkupEdit.Text

/-- A set of texts that can be read in one go. -/
inductive Lexical where
  /-- Exactly these characters. -/
  | mark (text : List Char)
  | name
  /-- A name behind `#`. -/
  | privateName
  /-- A name with a hyphen in it. -/
  | hyphenated
  | number
  | comment
  /-- The first line of a script for a shell. -/
  | hashBang
  | characterReference
  /-- The characters between `quote`s up to the next escape or the end. -/
  | stringPiece (quote : Char)
  /-- The same in an attribute of markup, which has references instead of escapes. -/
  | attributePiece (quote : Char)
  | escape
  /-- A regular expression between its slashes, the slash behind it, and the letters behind that. -/
  | pattern
  | patternEnd
  | patternFlags
  /-- The end of a statement that no character marks. -/
  | statementEnd
  /-- The end of a signature that no character marks. -/
  | signatureEnd
  /-- The characters of a template up to its end, an escape or a substitution. -/
  | templatePiece
  /-- The mark that opens the branches of a conditional expression. -/
  | conditionalMark
  /-- A comment of markup, up to the end of its line. -/
  | markupComment
  /-- Text between the tags of markup. -/
  | markupText
  deriving DecidableEq, Repr

namespace Lexical

/-- Exactly the characters of a word. -/
def word (text : String) : Lexical := mark text.toList

/-- Whether nothing may stand in front of a lexeme of the set. -/
def isGlued : Lexical → Bool
  | stringPiece _ => true
  | attributePiece _ => true
  | escape => true
  | pattern => true
  | patternEnd => true
  | patternFlags => true
  | _ => false

/-- Of two lexemes at one place the one of the higher rank is read, of equal ranks the longer. -/
def rank : Lexical → Int
  | stringPiece _ => 1
  | attributePiece _ => 1
  | patternEnd => 1
  | pattern => -1
  | _ => 0

/-- What decides between lexemes of one rank and one length: marks come first. -/
def plainness : Lexical → Nat
  | mark _ => 2
  | patternEnd => 3
  | l => if l.isGlued then 1 else 0

end Lexical

/-- The longest start of a text whose characters satisfy `p`. -/
def runLength (p : Char → Bool) (s : List Char) : Nat := (s.takeWhile p).length

/-- White space of the ASCII range. -/
def isAsciiBlank (c : Char) : Bool := c == ' ' || ('\t' ≤ c && c ≤ '\r')

/-- A character that separates lexemes: white space of the ASCII range, the separators of the
Unicode category `Zs`, and the marks of width zero. -/
def isGap (c : Char) : Bool :=
  isAsciiBlank c || c == '\u00a0' || c == '\u1680' || ('\u2000' ≤ c && c ≤ '\u200b')
    || c == '\u2028' || c == '\u2029' || c == '\u202f' || c == '\u205f' || c == '\u2060'
    || c == '\u3000' || c == '\ufeff'

def isHexDigit (c : Char) : Bool := (baseDigit? 16 c).isSome

def isOctalDigit (c : Char) : Bool := (baseDigit? 8 c).isSome

/-- A line break that ends a line comment. -/
def isLineBreak (c : Char) : Bool := c == '\n' || c == '\r' || c == '\u2028' || c == '\u2029'

/-! ## Blanks and comments -/

def blankLength (s : List Char) : Nat := runLength isGap s

/-- The length of a text up to and with the first `*/`. -/
def blockEnd? : List Char → Option Nat
  | [] => none
  | '*' :: '/' :: _ => some 2
  | _ :: s => (blockEnd? s).map (· + 1)

/-- The length of the comment at the start of a text. -/
def commentLength? : List Char → Option Nat
  | '/' :: '/' :: s => some (2 + runLength (fun c => !isLineBreak c) s)
  | '/' :: '*' :: s => (blockEnd? s).map (· + 2)
  | _ => none

/-! ## Names -/

/-- The marks that no name holds. -/
def nameMarks : List Char := ":;`\"'@#.,|^&<=>+-*/\\%?!~()[]\x7b\x7d".toList

/-- A character that may stand in a name. -/
def isNameChar (c : Char) : Bool := ' ' < c && !isGap c && !nameMarks.contains c

/-- The length of a code point escape, `\uXXXX` or with the digits between braces. -/
def unicodeEscapeLength? : List Char → Option Nat
  | '\\' :: 'u' :: '\x7b' :: s =>
    let n := runLength isHexDigit s
    if n == 0 then none
    else match s.drop n with
      | '\x7d' :: _ => some (n + 4)
      | _ => none
  | '\\' :: 'u' :: s => if 4 ≤ runLength isHexDigit (s.take 4) then some 6 else none
  | _ => none

/-- The length of the characters of a name, escapes included; the first `skip` characters belong
to an escape that is known already. -/
def nameRest (skip : Nat) : List Char → Nat
  | [] => 0
  | c :: s =>
    match skip with
    | k + 1 => nameRest k s + 1
    | 0 =>
      if isNameChar c then nameRest 0 s + 1
      else match unicodeEscapeLength? (c :: s) with
        | some n => nameRest (n - 1) s + 1
        | none => 0

/-- The length of the name at the start of a text. -/
def nameLength? (s : List Char) : Option Nat :=
  match s with
  | [] => none
  | c :: _ =>
    if isAsciiDigit c then none
    else match nameRest 0 s with
      | 0 => none
      | n => some n

/-- The length of a name with a hyphen in it. -/
def hyphenatedLength? (s : List Char) : Option Nat :=
  let isPart (c : Char) : Bool := isAsciiLetter c || isAsciiDigit c || c == '_' || c == '$'
  match s with
  | [] => none
  | c :: _ =>
    if isAsciiDigit c then none
    else
      let n := runLength isPart s
      if n == 0 then none
      else match s.drop n with
        | '-' :: t => some (n + 1 + runLength (fun c => isPart c || c == '-') t)
        | _ => none

/-! ## Numbers -/

/-- The length of digits with single underscores between them. -/
def digitsLength (p : Char → Bool) : List Char → Nat
  | [] => 0
  | '_' :: c :: s => if p c then digitsLength p s + 2 else 0
  | c :: s => if p c then digitsLength p s + 1 else 0

/-- Digits that start with a digit. -/
def digitsLength? (p : Char → Bool) (s : List Char) : Option Nat :=
  match s with
  | [] => none
  | c :: _ => if p c then some (digitsLength p s) else none

/-- The length of an exponent, zero where there is none. -/
def exponentLength (s : List Char) : Nat :=
  match s with
  | [] => 0
  | c :: t =>
    if c == 'e' || c == 'E' then
      let sign := match t with
        | '+' :: _ => 1
        | '-' :: _ => 1
        | _ => 0
      match digitsLength? isAsciiDigit (t.drop sign) with
      | some n => n + sign + 1
      | none => 0
    else 0

/-- The length of the digits behind a base mark, and of an `n` behind them. -/
def basedLength? (p : Char → Bool) (s : List Char) : Option Nat :=
  match digitsLength? p s with
  | none => none
  | some n =>
    match s.drop n with
    | 'n' :: _ => some (n + 3)
    | _ => some (n + 2)

/-- Whether digits may stand in front of a point: a zero alone, or no more than one zero in front
of another digit. -/
def mayHavePoint : List Char → Bool
  | ['0'] => true
  | '0' :: c :: _ => '1' ≤ c && c ≤ '9'
  | _ => true

def decimalLength? (s : List Char) : Option Nat :=
  match s with
  | '.' :: t => (digitsLength? isAsciiDigit t).map (fun n => n + 1 + exponentLength (t.drop n))
  | _ =>
    match digitsLength? isAsciiDigit s with
    | none => none
    | some n =>
      let whole := s.take n
      match s.drop n with
      | 'n' :: _ => some (n + 1)
      | '.' :: t =>
        if mayHavePoint whole then
          let m := (digitsLength? isAsciiDigit t).getD 0
          some (n + 1 + m + exponentLength (t.drop m))
        else some n
      | t => if mayHavePoint whole then some (n + exponentLength t) else some n

def numberLength? (s : List Char) : Option Nat :=
  let based := match s with
    | '0' :: c :: t =>
      if c == 'x' || c == 'X' then basedLength? isHexDigit t
      else if c == 'o' || c == 'O' then basedLength? isOctalDigit t
      else if c == 'b' || c == 'B' then basedLength? (fun d => d == '0' || d == '1') t
      else none
    | _ => none
  based.or (decimalLength? s)

/-! ## Strings, templates, patterns -/

/-- The length of an escape sequence. -/
def escapeLength? : List Char → Option Nat
  | '\\' :: 'x' :: s => if 2 ≤ runLength isHexDigit (s.take 2) then some 4 else none
  | '\\' :: 'u' :: s => unicodeEscapeLength? ('\\' :: 'u' :: s)
  | '\\' :: c :: d :: s =>
    if isOctalDigit c then some (1 + runLength isOctalDigit ((c :: d :: s).take 3))
    else if (c == '\r' || c == '?') && (d == '\n' || d == '\u2028' || d == '\u2029') then some 3
    else some 2
  | ['\\', _] => some 2
  | _ => none

/-- The length of the characters of a string in front of its end, an escape or a line break. -/
def stringPieceLength (quote : Char) (s : List Char) : Nat :=
  runLength (fun c => c != quote && c != '\\' && c != '\r' && c != '\n') s

/-- The length of a character reference such as `&amp;` or `&#x41;`. -/
def referenceLength? : List Char → Option Nat
  | '&' :: '#' :: s =>
    let hex := match s with
      | 'x' :: _ => true
      | 'X' :: _ => true
      | _ => false
    let digits := if hex then s.drop 1 else s
    let n := if hex then runLength isHexDigit digits else runLength isAsciiDigit digits
    if n == 0 || (if hex then 6 else 5) < n then none
    else match digits.drop n with
      | ';' :: _ => some (n + (if hex then 4 else 3))
      | _ => none
  | '&' :: s =>
    let n := runLength isAsciiLetter s
    if n == 0 || 30 < n then none
    else match s.drop n with
      | ';' :: _ => some (n + 2)
      | _ => none
  | _ => none

/-- The length of the characters of an attribute in front of its end or a reference. An ampersand
that starts no reference takes the character behind it along, which is what `taken` tells. -/
def attributePieceLength (quote : Char) (taken : Bool) : List Char → Nat
  | [] => 0
  | c :: s =>
    if taken then attributePieceLength quote false s + 1
    else if c == quote then 0
    else if c == '&' then
      match s with
      | [] => 0
      | d :: _ => if d == '#' || isAsciiLetter d then 0 else attributePieceLength quote true s + 1
    else attributePieceLength quote false s + 1

/-- The length of a class of characters up to and with the bracket that closes it. -/
def classLength? : List Char → Option Nat
  | [] => none
  | '\n' :: _ => none
  | ']' :: _ => some 1
  | '\\' :: c :: s => if c == '\n' then none else (classLength? s).map (· + 2)
  | ['\\'] => none
  | _ :: s => (classLength? s).map (· + 1)

/-- The length of a regular expression in front of the slash that ends it; the first `skip`
characters are known to belong to it. -/
def patternLength (skip : Nat) : List Char → Nat
  | [] => 0
  | c :: s =>
    match skip with
    | k + 1 => patternLength k s + 1
    | 0 =>
      if c == '/' || c == '\n' then 0
      else if c == '\\' then
        match s with
        | [] => 0
        | d :: _ => if d == '\n' then 0 else patternLength 1 s + 1
      else if c == '[' then
        match classLength? s with
        | none => 0
        | some n => patternLength n s + 1
      else patternLength 0 s + 1

/-- The length of the characters of a template in front of its end, an escape or a substitution;
none where nothing follows that could end it. -/
def templatePieceLength? : List Char → Option Nat
  | [] => none
  | '`' :: _ => some 0
  | '\\' :: _ => some 0
  | '\x00' :: _ => none
  | '$' :: '\x7b' :: _ => some 0
  | _ :: s => (templatePieceLength? s).map (· + 1)

/-! ## Markup -/

/-- A character that ends the text between tags. -/
def endsMarkupText (c : Char) : Bool :=
  c == '<' || c == '>' || c == '\x7b' || c == '\x7d' || c == '&' || c == '\x00'

/-- The length of the text between tags. Blanks alone are no text when a line break is the first
of them. -/
def markupTextLength? (s : List Char) : Option Nat :=
  let run := s.takeWhile (fun c => !endsMarkupText c)
  match run with
  | [] => none
  | '\n' :: rest => if rest.all isAsciiBlank then none else some run.length
  | _ => some run.length

/-- A line break that ends a comment of markup. -/
def endsMarkupComment (c : Char) : Bool :=
  c == '\n' || c == '\u2028' || c == '\u2029' || c == '\x00'

/-- The length of a markup comment, which reaches to the end of its line. -/
def markupCommentLength? : List Char → Option Nat
  | '<' :: '!' :: '-' :: '-' :: s => some (4 + runLength (fun c => !endsMarkupComment c) s)
  | '-' :: '-' :: '>' :: s => some (3 + runLength (fun c => !endsMarkupComment c) s)
  | _ => none

/-- A markup comment with the blanks in front of it, the first of which is a line break. -/
def markupCommentLineLength? (s : List Char) : Option Nat :=
  let n := runLength isAsciiBlank s
  match s with
  | '\n' :: _ => (markupCommentLength? (s.drop n)).map (· + n)
  | _ => if n == 0 then markupCommentLength? s else none

/-! ## Conditions on what follows -/

/-- A question mark that opens the branches of a conditional expression: not one of two, no
optional access, and not the mark of an optional parameter. -/
def conditionalMarkLength? : List Char → Option Nat
  | '?' :: s =>
    match s with
    | '?' :: _ => none
    | '.' :: _ => none
    | _ =>
      match s.drop (runLength isAsciiBlank s) with
      | ':' :: _ => none
      | ')' :: _ => none
      | ',' :: _ => none
      | '.' :: t => if t.head?.any isAsciiDigit then some 1 else none
      | _ => some 1
  | _ => none

/-- The rest of `s` behind `mark`, if it starts with it. -/
def dropMark? : List Char → List Char → Option (List Char)
  | [], s => some s
  | m :: mark, c :: s => if m = c then dropMark? mark s else none
  | _ :: _, [] => none

/-- A length of one at least. -/
def positive? (n : Nat) : Option Nat := if n == 0 then none else some n

/-- The length of the lexeme of a set at the start of a text; the sets that depend on what may
follow have none. -/
def Lexical.length? (set : Lexical) (s : List Char) : Option Nat :=
  match set with
  | mark text => (dropMark? text s).map (fun _ => text.length)
  | name => nameLength? s
  | privateName =>
    match s with
    | '#' :: t => (nameLength? t).map (· + 1)
    | _ => none
  | hyphenated => hyphenatedLength? s
  | number => numberLength? s
  | comment => commentLength? s
  | hashBang =>
    match s with
    | '#' :: '!' :: t => some (2 + runLength (fun c => c != '\n') t)
    | _ => none
  | characterReference => referenceLength? s
  | stringPiece quote => positive? (stringPieceLength quote s)
  | attributePiece quote => positive? (attributePieceLength quote false s)
  | escape => escapeLength? s
  | pattern => positive? (patternLength 0 s)
  | patternEnd => if s.head? == some '/' then some 1 else none
  | patternFlags => positive? (runLength (fun c => 'a' ≤ c && c ≤ 'z') s)
  | _ => none

/-- The number of characters at the start of a text that look like the start of a name or an escape
and are none. An escape stands behind no blanks, which is what `isGlued` tells. -/
def brokenLength (isGlued : Bool) : List Char → Nat
  | '\\' :: 'u' :: '\x7b' :: s => 3 + runLength isHexDigit s
  | '\\' :: 'u' :: s => 2 + runLength isHexDigit (s.take 3)
  | '\\' :: 'x' :: s => if isGlued then 2 + runLength isHexDigit (s.take 1) else 1
  | '#' :: s => 1 + (match s with
    | '\\' :: 'u' :: '\x7b' :: t => 3 + runLength isHexDigit t
    | '\\' :: 'u' :: t => 2 + runLength isHexDigit (t.take 3)
    | '\\' :: _ => 1
    | _ => 0)
  | _ => 0

/-! ## Ends of statements -/

/-- Where a reader of blanks and comments is. -/
inductive Between where
  | blanks
  | lineComment
  | blockComment
  deriving DecidableEq

/-- What stands behind blanks and comments. -/
inductive Behind where
  /-- This text; `saw` tells whether a comment came first. -/
  | text (saw : Bool) (rest : List Char)
  /-- A slash that starts no comment. -/
  | slash

/-- The text behind blanks and comments. -/
def behindComments (saw : Bool) : Between → List Char → Behind
  | _, [] => .text saw []
  | .blanks, '/' :: '/' :: s => behindComments true .lineComment s
  | .blanks, '/' :: '*' :: s => behindComments saw .blockComment s
  | .blanks, '/' :: _ => .slash
  | .blanks, c :: s => if isAsciiBlank c then behindComments saw .blanks s else .text saw (c :: s)
  | .lineComment, c :: s =>
    if c == '\n' then behindComments saw .blanks s else behindComments saw .lineComment s
  | .blockComment, '*' :: '/' :: s => behindComments true .blanks s
  | .blockComment, _ :: s => behindComments saw .blockComment s

/-- What may stand behind the end of a statement or a signature, and what goes on with it. -/
structure Outlook where
  /-- Whether an operator could go on, as behind a value. -/
  operators : Bool
  /-- Whether a signature could go on with a body. -/
  body : Bool

/-- Whether an end was found. -/
inductive LineEnd where
  | ends
  /-- The search for an end stopped in front of `rest`; `saw` tells whether it passed a comment. -/
  | goesOn (saw : Bool) (rest : List Char)

/-- Whether a line that starts like this begins a statement of its own, when what precedes it could
go on. -/
def lineStart (outlook : Outlook) (saw : Bool) : List Char → LineEnd
  | [] => .ends
  | '\x7b' :: s => if outlook.body then .goesOn saw ('\x7b' :: s) else .ends
  | '(' :: s => if outlook.operators then .goesOn saw ('(' :: s) else .ends
  | '[' :: s => if outlook.operators then .goesOn saw ('[' :: s) else .ends
  | '+' :: s => if s.head? == some '+' then .ends else .goesOn saw s
  | '-' :: s => if s.head? == some '-' then .ends else .goesOn saw s
  | '!' :: s => if s.head? != some '=' then .ends else .goesOn saw s
  | 'i' :: 'n' :: s =>
    if !s.head?.any isAsciiLetter then .goesOn saw s
    else match dropMark? "stanceof".toList s with
      | none => .ends
      | some t => if t.head?.any isAsciiLetter then .ends else .goesOn saw t
  | c :: s => if "`,.;*%><=?^|&/:".toList.contains c then .goesOn saw (c :: s) else .ends

/-- Whether a statement may end in front of a text without a mark: at the end of the text or of a
block, or where the next line begins a statement of its own. -/
def lineEnd (outlook : Outlook) (s : List Char) : LineEnd :=
  match s.dropWhile (fun c => isAsciiBlank c && c != '\n') with
  | [] => .ends
  | '\x00' :: _ => .ends
  | '\x7d' :: t =>
    match t.dropWhile isAsciiBlank with
    | ':' :: rest => if outlook.operators then .ends else .goesOn false (':' :: rest)
    | _ => .ends
  | '\n' :: t =>
    match behindComments false .blanks t with
    | .slash => .goesOn false []
    | .text saw rest => lineStart outlook saw rest
  | t => .goesOn false t

end MarkupEdit.Grammar
