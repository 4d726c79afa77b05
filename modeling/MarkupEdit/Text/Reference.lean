import MarkupEdit.Text.Ascii
import MarkupEdit.Text.Digits

/-!
# Character references

References to characters in markup: `&amp;`, `&#65;`, `&#x41;`.

* `reference?`: the character that a name between `&` and `;` stands for.
* `decodeReferences`: a text with its references replaced.
-/

namespace MarkupEdit.Text

def namedReferences : List (String × Char) :=
  [("amp", '&'), ("lt", '<'), ("gt", '>'), ("quot", '"'), ("apos", '\''), ("nbsp", '\u00a0')]

/-- The character that a reference stands for. -/
def reference? (name : List Char) : Option Char :=
  match name with
  | '#' :: 'x' :: digits => (baseValue? 16 digits).bind scalar?
  | '#' :: 'X' :: digits => (baseValue? 16 digits).bind scalar?
  | '#' :: digits => (baseValue? 10 digits).bind scalar?
  | _ => namedReferences.lookup (String.ofList name)

theorem length_of_splitFirst? {p : Char → Bool} {s a b : List Char}
    (h : splitFirst? p s = some (a, b)) : a.length + b.length + 1 = s.length := by
  induction s generalizing a b with
  | nil => simp [splitFirst?] at h
  | cons c s ih =>
    by_cases hc : p c = true
    · simp only [splitFirst?, hc, if_true, Option.some.injEq, Prod.mk.injEq] at h
      simp [← h.1, ← h.2]
    · simp only [splitFirst?, hc, Bool.false_eq_true, if_false, Option.map_eq_some_iff,
        Prod.mk.injEq, Prod.exists] at h
      obtain ⟨x, y, hs, rfl, rfl⟩ := h
      have := ih hs
      simp only [List.length_cons]
      omega

/-- The text with every reference replaced by its character. What looks like a reference and is
none stays. -/
def decodeReferences (s : List Char) : List Char :=
  match s with
  | [] => []
  | c :: s =>
    if c == '&' then
      match h : splitFirst? (· == ';') s with
      | none => c :: decodeReferences s
      | some (name, rest) =>
        have := length_of_splitFirst? h
        match reference? name with
        | some decoded => decoded :: decodeReferences rest
        | none => c :: decodeReferences s
    else c :: decodeReferences s
  termination_by s.length

end MarkupEdit.Text
