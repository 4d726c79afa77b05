import MarkupEdit.Text.Point

/-!
# Lines

The lines of a text by the byte offsets of their starts, and columns that are counted in UTF-16
units, as browsers do.

* `LineIndex.ofText`: the starts of the lines of a text.
* `LineIndex.lineOf`: the line that holds an offset.
* `LineIndex.offsetOf?`: the offset of a line and a column.
-/

namespace MarkupEdit.Text

/-- The number of UTF-16 units of a character. -/
def utf16Size (c : Char) : Nat := if c.toNat < 0x10000 then 1 else 2

/-- The bytes of the start of a text that spans `units` UTF-16 units, or reaches the end of its
line. -/
def utf16PrefixBytes (units : Nat) : List Char → Nat
  | [] => 0
  | c :: s =>
    if units = 0 || c == '\n' then 0
    else c.utf8Size + utf16PrefixBytes (units - utf16Size c) s

/-- The offsets behind the line breaks of a text that starts at an offset. -/
def startsBehindBreaks (offset : Nat) : List Char → List Nat
  | [] => []
  | c :: s =>
    let next := offset + c.utf8Size
    if c == '\n' then next :: startsBehindBreaks next s else startsBehindBreaks next s

/-- The starts of the lines of a text, and its size in bytes. -/
structure LineIndex where
  starts : List Nat
  size : Nat
  deriving DecidableEq, Repr

namespace LineIndex

def ofText (s : List Char) : LineIndex := ⟨0 :: startsBehindBreaks 0 s, byteSize s⟩

def lineCount (index : LineIndex) : Nat := index.starts.length

/-- The bytes of a line, counted from zero, up to and with its line break. -/
def lineRange? (index : LineIndex) (line : Nat) : Option (Nat × Nat) :=
  index.starts[line]?.map (fun start => (start, index.starts[line + 1]?.getD index.size))

/-- The line, counted from zero, that holds an offset. -/
def lineOf (index : LineIndex) (offset : Nat) : Nat :=
  (index.starts.takeWhile (· ≤ offset)).length - 1

end LineIndex

/-- The part of a text between two byte offsets. -/
def bytesBetween (start stop : Nat) (s : List Char) : List Char :=
  match s with
  | [] => []
  | c :: s =>
    if stop = 0 then []
    else if start = 0 then c :: bytesBetween 0 (stop - c.utf8Size) s
    else bytesBetween (start - c.utf8Size) (stop - c.utf8Size) s

/-- The byte offset of a line, counted from one, and a column in UTF-16 units, counted from zero.
A column behind the end of the line means that end. -/
def LineIndex.offsetOf? (index : LineIndex) (s : List Char) (line column : Nat) : Option Nat :=
  match line with
  | 0 => none
  | line + 1 =>
    (index.lineRange? line).map
      (fun (start, stop) => start + utf16PrefixBytes column (bytesBetween start stop s))

end MarkupEdit.Text
