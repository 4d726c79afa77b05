/-!
# Points in a text

A point counts the bytes of the UTF-8 form before it, the line breaks before it (its row), and
the bytes since the last of them (its column).

* `Point.after_append`: reading two texts one after the other is reading their concatenation.
* `Point.after_byte`: the byte count grows by the size of what was read.
-/

namespace MarkupEdit.Text

/-- The sum of what is measured of the members of a list. -/
def total {α : Type} (measure : α → Nat) (l : List α) : Nat := l.foldr (fun a n => measure a + n) 0

@[simp] theorem total_nil {α : Type} (measure : α → Nat) : total measure [] = 0 := rfl

@[simp] theorem total_cons {α : Type} (measure : α → Nat) (a : α) (l : List α) :
    total measure (a :: l) = measure a + total measure l := rfl

/-- The number of bytes of the UTF-8 form of a text. -/
def byteSize (s : List Char) : Nat := total Char.utf8Size s

@[simp] theorem byteSize_nil : byteSize [] = 0 := rfl

@[simp] theorem byteSize_cons (c : Char) (s : List Char) :
    byteSize (c :: s) = c.utf8Size + byteSize s := rfl

@[simp] theorem byteSize_append (s t : List Char) :
    byteSize (s ++ t) = byteSize s + byteSize t := by
  induction s with
  | nil => simp
  | cons c s ih => simp [ih, Nat.add_assoc]

/-- A place in a text, all three counts from zero. -/
structure Point where
  byte : Nat
  row : Nat
  column : Nat
  deriving DecidableEq, Repr

namespace Point

def start : Point := ⟨0, 0, 0⟩

/-- The point behind one more character. -/
def next (p : Point) (c : Char) : Point :=
  if c = '\n' then ⟨p.byte + 1, p.row + 1, 0⟩
  else ⟨p.byte + c.utf8Size, p.row, p.column + c.utf8Size⟩

/-- The point behind a text that starts at `p`. -/
def after (p : Point) (s : List Char) : Point := s.foldl next p

@[simp] theorem after_nil (p : Point) : p.after [] = p := rfl

@[simp] theorem after_cons (p : Point) (c : Char) (s : List Char) :
    p.after (c :: s) = (p.next c).after s := rfl

theorem after_append (p : Point) (s t : List Char) :
    p.after (s ++ t) = (p.after s).after t := by simp [after]

theorem next_byte (p : Point) (c : Char) : (p.next c).byte = p.byte + c.utf8Size := by
  unfold next
  split
  · next h => subst h; rfl
  · rfl

theorem after_byte (p : Point) (s : List Char) : (p.after s).byte = p.byte + byteSize s := by
  induction s generalizing p with
  | nil => simp
  | cons c s ih => simp [ih, next_byte, Nat.add_assoc]

end Point

end MarkupEdit.Text
