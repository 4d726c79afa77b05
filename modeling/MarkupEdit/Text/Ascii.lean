/-!
# Text operations

Small operations on strings: ASCII case, pieces at the ends, and cuts at the first or last place
where something occurs.
-/

namespace MarkupEdit.Text

/-- The text with the letters `A` to `Z` made small. -/
def asciiLower (s : String) : String := String.ofList (s.toList.map Char.toLower)

/-- Whether two texts differ at most in the case of ASCII letters. -/
def sameIgnoringCase (s t : String) : Bool := asciiLower s == asciiLower t

/-- The rest of `s` behind `start`, if it starts so. -/
def dropStart? : List Char → List Char → Option (List Char)
  | [], s => some s
  | _ :: _, [] => none
  | c :: start, d :: s => if c = d then dropStart? start s else none

theorem dropStart?_eq_some_iff {start s rest : List Char} :
    dropStart? start s = some rest ↔ s = start ++ rest := by
  induction start generalizing s with
  | nil => simp [dropStart?, eq_comm]
  | cons c start ih =>
    cases s with
    | nil => simp [dropStart?]
    | cons d s =>
      by_cases h : c = d
      · simp [dropStart?, h, ih]
      · simp [dropStart?, h, Ne.symm h]

/-- The start of `s` in front of `stop`, if it ends so. -/
def dropEnd? (stop s : List Char) : Option (List Char) :=
  (dropStart? stop.reverse s.reverse).map List.reverse

theorem dropEnd?_eq_some_iff {stop s rest : List Char} :
    dropEnd? stop s = some rest ↔ s = rest ++ stop := by
  rw [dropEnd?, Option.map_eq_some_iff]
  simp only [dropStart?_eq_some_iff, List.reverse_eq_iff, List.reverse_append, List.reverse_reverse]
  constructor
  · rintro ⟨r, rfl, hr⟩
    rw [hr, List.reverse_reverse]
  · rintro rfl
    exact ⟨rest.reverse, by rw [List.reverse_reverse], rfl⟩

/-- The texts in front of and behind the first character that satisfies `p`. -/
def splitFirst? (p : Char → Bool) : List Char → Option (List Char × List Char)
  | [] => none
  | c :: s =>
    if p c then some ([], s) else (splitFirst? p s).map (fun (a, b) => (c :: a, b))

theorem splitFirst?_append {p : Char → Bool} {a b : List Char} {c : Char}
    (ha : ∀ d ∈ a, p d = false) (hc : p c) : splitFirst? p (a ++ c :: b) = some (a, b) := by
  induction a with
  | nil => exact if_pos hc
  | cons d a ih =>
    rw [List.cons_append, splitFirst?, ha d List.mem_cons_self,
      ih fun e he => ha e (List.mem_cons_of_mem _ he)]
    rfl

/-- **A text is cut at the first place of a character.** -/
theorem splitFirst?_eq_some_iff {mark : Char} {s a b : List Char} :
    splitFirst? (· == mark) s = some (a, b) ↔ s = a ++ mark :: b ∧ mark ∉ a := by
  constructor
  · intro h
    induction s generalizing a with
    | nil => cases h
    | cons c s ih =>
      by_cases hc : c = mark
      · subst hc
        rw [splitFirst?, if_pos (beq_self_eq_true c)] at h
        cases h
        exact ⟨rfl, List.not_mem_nil⟩
      · rw [splitFirst?, if_neg (by simpa using hc)] at h
        obtain ⟨⟨a', b'⟩, hs, hab⟩ := Option.map_eq_some_iff.mp h
        cases hab
        obtain ⟨rfl, ha⟩ := ih hs
        exact ⟨rfl, fun hm => (List.mem_cons.mp hm).elim (fun heq => hc heq.symm) ha⟩
  · rintro ⟨rfl, ha⟩
    refine splitFirst?_append (fun d hd => ?_) (beq_self_eq_true mark)
    exact beq_false_of_ne fun heq => ha (heq ▸ hd)

/-- A text without the character is not cut. -/
theorem splitFirst?_eq_none_iff {mark : Char} {s : List Char} :
    splitFirst? (· == mark) s = none ↔ mark ∉ s := by
  constructor
  · intro h hmem
    obtain ⟨a, b, hs, ha⟩ := List.eq_append_cons_of_mem hmem
    rw [splitFirst?_eq_some_iff.mpr ⟨hs, ha⟩] at h
    cases h
  · intro h
    refine Option.eq_none_iff_forall_ne_some.mpr fun ⟨a, b⟩ hab => h ?_
    rw [(splitFirst?_eq_some_iff.mp hab).1]
    exact List.mem_append_right _ List.mem_cons_self

/-- The texts in front of and behind the last character that satisfies `p`. -/
def splitLast? (p : Char → Bool) (s : List Char) : Option (List Char × List Char) :=
  (splitFirst? p s.reverse).map (fun (a, b) => (b.reverse, a.reverse))

/-- The texts in front of and behind the first occurrence of `mark`. -/
def splitAt? (mark : List Char) : List Char → Option (List Char × List Char)
  | [] => if mark.isEmpty then some ([], []) else none
  | c :: s =>
    match dropStart? mark (c :: s) with
    | some rest => some ([], rest)
    | none => (splitAt? mark s).map (fun (a, b) => (c :: a, b))

/-- Whether `mark` occurs in a text. -/
def hasPart (mark s : List Char) : Bool := (splitAt? mark s).isSome

def isAsciiDigit (c : Char) : Bool := '0' ≤ c && c ≤ '9'

def isAsciiSmall (c : Char) : Bool := 'a' ≤ c && c ≤ 'z'

def isAsciiLetter (c : Char) : Bool := isAsciiSmall c || ('A' ≤ c && c ≤ 'Z')

def isAsciiAlphanumeric (c : Char) : Bool := isAsciiLetter c || isAsciiDigit c

/-- Whether a text holds small ASCII letters and nothing else, at least one. -/
def isSmallWord (s : List Char) : Bool := !s.isEmpty && s.all isAsciiSmall

/-- Whether a text holds ASCII digits and nothing else, at least one. -/
def isDigits (s : List Char) : Bool := !s.isEmpty && s.all isAsciiDigit

end MarkupEdit.Text
