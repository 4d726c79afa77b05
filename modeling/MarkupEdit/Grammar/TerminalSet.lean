/-!
# Sets of terminals

Terminals are small numbers, so that a set of them is a row of bits. Sets of equal elements are
equal.

* `TerminalSet.has`: whether a terminal is in a set; `has_empty`, `has_singleton` and `has_union`
  say of which sets a terminal is an element.
-/

namespace MarkupEdit.Grammar

/-- A set of terminals, one bit for each. -/
structure TerminalSet where
  bits : Nat
  deriving DecidableEq, Hashable, Inhabited

namespace TerminalSet

def empty : TerminalSet := ⟨0⟩

def singleton (terminal : Nat) : TerminalSet := ⟨1 <<< terminal⟩

def union (s t : TerminalSet) : TerminalSet := ⟨s.bits ||| t.bits⟩

def has (s : TerminalSet) (terminal : Nat) : Bool := s.bits.testBit terminal

/-- Whether two sets have an element in common. -/
def meets (s t : TerminalSet) : Bool := s.bits &&& t.bits != 0

def ofList (terminals : List Nat) : TerminalSet :=
  terminals.foldl (fun s t => s.union (singleton t)) empty

/-- The elements below `bound`. -/
def toList (s : TerminalSet) (bound : Nat) : List Nat := (List.range bound).filter s.has

theorem has_empty (terminal : Nat) : empty.has terminal = false := by
  simp [has, empty]

theorem has_singleton (t terminal : Nat) :
    (singleton t).has terminal = decide (t = terminal) := by
  simp only [has, singleton, Nat.shiftLeft_eq, Nat.one_mul]
  rw [Nat.testBit_two_pow]

theorem has_union (s t : TerminalSet) (terminal : Nat) :
    (s.union t).has terminal = (s.has terminal || t.has terminal) := by
  simp [has, union, Nat.testBit_or]

end TerminalSet

end MarkupEdit.Grammar
