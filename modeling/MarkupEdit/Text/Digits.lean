/-!
# Digits to a base

Numbers as they are written in references, in escapes and in JSON.

* `baseDigit?`, `baseValue?`: what a digit counts, and the number that digits write.
* `scalar?`: the character with a number.
-/

namespace MarkupEdit.Text

def baseDigit? (base : Nat) (c : Char) : Option Nat :=
  let value :=
    if '0' ≤ c && c ≤ '9' then c.toNat - 48
    else if 'a' ≤ c && c ≤ 'f' then c.toNat - 87
    else if 'A' ≤ c && c ≤ 'F' then c.toNat - 55
    else base
  if value < base then some value else none

/-- The number that digits write to a base; a plus sign may stand in front. -/
def baseValue? (base : Nat) (digits : List Char) : Option Nat :=
  let digits := match digits with
    | '+' :: rest => rest
    | _ => digits
  if digits.isEmpty then none
  else digits.foldlM (fun n c => (baseDigit? base c).map (n * base + ·)) 0

/-- The character with a code point. -/
def scalar? (n : Nat) : Option Char :=
  if n < 0xd800 || (0xe000 ≤ n && n < 0x110000) then some (Char.ofNat n) else none

end MarkupEdit.Text
