import MarkupEdit.Grammar.Automaton

/-!
# Scanning

What is read next depends on what a state expects. Of all lexemes that fit, the rank of their sets
decides, then their length. Some are found by a look at the text around them, and those go first.

* `Lexicon`: the terminals of a grammar, ordered for a search.
* `Lexicon.plain?`: the lexeme that is read next, without regard to what may follow it.
* `Lexicon.contextual?`: the lexeme that the text around it shows.
-/

namespace MarkupEdit.Grammar

open MarkupEdit.Text

/-- The terminals that only a look at the text around them finds, and those whose being expected
tells what is around them. -/
structure Landmarks where
  statementEnd : Option Nat
  signatureEnd : Option Nat
  templatePiece : Option Nat
  conditionalMark : Option Nat
  markupComment : Option Nat
  markupText : Option Nat
  /-- An operator, which may stand behind a value only. -/
  operator : Option Nat
  escape : Option Nat
  pattern : Option Nat

/-- The terminals of a grammar. -/
structure Lexicon where
  /-- The terminal that names are read as. -/
  word : Nat
  /-- The marks that could be names. -/
  words : Std.HashMap String Nat
  wordSet : TerminalSet
  /-- The other marks by the code point of their first character. -/
  marks : Std.HashMap UInt32 (List (Nat × List Char))
  /-- The terminals that are no marks. -/
  others : List (Nat × Lexical)
  landmarks : Landmarks

/-- A lexeme behind blanks. -/
structure Piece where
  terminal : Nat
  gap : Nat
  size : Nat

namespace Lexicon

def ofCompiled (c : Compiled) : Lexicon :=
  let terminals := (c.terminals.toList.zipIdx.drop 1).map fun (t, n) => (n, t.lexical)
  let marks := terminals.filterMap fun
    | (n, .mark text) => some (n, text)
    | _ => none
  let isWord (text : List Char) : Bool := text.head?.any isAsciiLetter
  let words := marks.filter fun (_, text) => isWord text
  let find (lexical : Lexical) : Option Nat := (terminals.find? (·.2 == lexical)).map (·.1)
  { word := c.word
    words := .ofList (words.map fun (n, text) => (String.ofList text, n))
    wordSet := .ofList (words.map (·.1))
    marks := marks.foldr
      (fun (n, text) (marks : Std.HashMap UInt32 (List (Nat × List Char))) =>
        match text with
        | [] => marks
        | first :: _ =>
          if isWord text then marks
          else marks.insert first.val ((n, text) :: marks.getD first.val []))
      ∅
    others := terminals.filter fun (_, lexical) =>
      match lexical with
      | .mark _ => false
      | _ => true
    landmarks :=
      { statementEnd := find .statementEnd
        signatureEnd := find .signatureEnd
        templatePiece := find .templatePiece
        conditionalMark := find .conditionalMark
        markupComment := find .markupComment
        markupText := find .markupText
        operator := find (.word "||")
        escape := find .escape
        pattern := find .pattern } }

/-! ## Lexemes by themselves -/

/-- A lexeme that fits, and what decides between it and others. -/
structure Candidate where
  piece : Piece
  rank : Int
  plainness : Nat

/-- Whether `a` is read rather than `b`. -/
def Candidate.beats (a b : Candidate) : Bool :=
  compareLex (compareOn (·.rank)) (compareLex (compareOn fun c => c.piece.gap + c.piece.size)
    (compareLex (compareOn (·.plainness)) (compareOn fun c => -(c.piece.terminal : Int)))) a b
    |>.isGT

/-- The candidate that is read. -/
def best? (candidates : List Candidate) : Option Piece :=
  (candidates.foldl
    (fun (best : Option Candidate) c =>
      match best with
      | none => some c
      | some b => if c.beats b then some c else some b)
    none).map (·.piece)

/-- The lexeme at the start of `s`, where the terminals in `expected` are looked for: those that
stand behind no blanks at once, the others behind them. At the end of the text only its end is
left. -/
def plain? (lx : Lexicon) (expected : TerminalSet) (s : List Char) : Option Piece :=
  let gap := blankLength s
  let rest := s.drop gap
  let others := lx.others.filterMap fun (n, lexical) =>
    if expected.has n || (n == lx.word && expected.meets lx.wordSet) then
      (lexical.length? (if lexical.isGlued then s else rest)).map fun size =>
        { piece := ⟨n, if lexical.isGlued then 0 else gap, size⟩
          rank := lexical.rank
          plainness := lexical.plainness : Candidate }
    else none
  let marks := match rest with
    | [] => []
    | c :: _ => (lx.marks.getD c.val []).filterMap fun (n, text) =>
      if expected.has n && (dropMark? text rest).isSome then
        some { piece := ⟨n, gap, text.length⟩
               rank := (Lexical.mark text).rank
               plainness := (Lexical.mark text).plainness : Candidate }
      else none
  match best? (others ++ marks) with
  | some piece => some piece
  | none => if rest.isEmpty && expected.has 0 then some ⟨0, gap, 0⟩ else none

/-! ## Lexemes by what is around them -/

/-- A terminal that is known and expected. -/
def expects (expected : TerminalSet) (terminal : Option Nat) : Bool := terminal.any expected.has

/-- The mark of a conditional expression behind blanks, `skipped` characters from the start. -/
def conditional? (lx : Lexicon) (skipped : Nat) (s : List Char) : Option Piece :=
  let gap := runLength isAsciiBlank s
  match lx.landmarks.conditionalMark, conditionalMarkLength? (s.drop gap) with
  | some n, some size => some ⟨n, skipped + gap, size⟩
  | _, _ => none

/-- The end of a statement, or else the mark of a conditional expression. -/
def lineEnd? (lx : Lexicon) (expected : TerminalSet) (s : List Char) : Option Piece :=
  let marks := lx.landmarks
  match lineEnd ⟨expects expected marks.operator, expects expected marks.signatureEnd⟩ s with
  | .ends => marks.statementEnd.map (⟨·, 0, 0⟩)
  | .goesOn saw rest =>
    if !saw && expects expected marks.conditionalMark && rest.head? == some '?' then
      lx.conditional? (s.length - rest.length) rest
    else none

/-- A comment of markup behind blanks. Between tags they belong to it. -/
def markupComment? (lx : Lexicon) (expected : TerminalSet) (s : List Char) : Option Piece :=
  lx.landmarks.markupComment.bind fun n =>
    if expects expected lx.landmarks.markupText then
      (markupCommentLineLength? s).map (⟨n, 0, ·⟩)
    else
      let gap := runLength (fun c => isAsciiBlank c || c == '\u2028' || c == '\u2029') s
      (markupCommentLength? (s.drop gap)).map (⟨n, gap, ·⟩)

/-- The lexeme at the start of `s` that the text around it shows. -/
def contextual? (lx : Lexicon) (expected : TerminalSet) (s : List Char) : Option Piece :=
  let marks := lx.landmarks
  let expects := expects expected
  if expects marks.templatePiece then
    if expects marks.statementEnd then none
    else match marks.templatePiece, (templatePieceLength? s).bind positive? with
      | some n, some size => some ⟨n, 0, size⟩
      | _, _ => none
  else
    let text := if expects marks.markupText then markupTextLength? s else none
    match marks.markupText, text with
    | some n, some size => some ⟨n, 0, size⟩
    | _, _ =>
      if expects marks.statementEnd || expects marks.signatureEnd then lx.lineEnd? expected s
      else if expects marks.conditionalMark then lx.conditional? 0 s
      else if expects marks.markupComment && !expects marks.operator && !expects marks.escape
          && !expects marks.pattern then lx.markupComment? expected s
      else none

end Lexicon

end MarkupEdit.Grammar
