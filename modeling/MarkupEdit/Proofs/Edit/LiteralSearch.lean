import MarkupEdit.Proofs.Edit.LiteralEdit
import MarkupEdit.Proofs.Edit.TextLookup
import MarkupEdit.Proofs.Tree.Preorder

/-!
# The literal that holds a text

Where no element shows a text, the literal that holds it is looked for. Items of arrays come before
all other literals if they are preferred, then those in the same letter case, then the order of the
document decides. Only the node right around a literal tells whether it is an item of an array, so a
literal deeper inside an array counts as one outside of it.

* `Candidate`: a literal that holds a text and may be edited.
* `tour_matches`: **the walk finds the candidates**, in the order of the document.
* `bestLiteral?_spec`: of several matches the first of the lowest rank is kept.
* `FirstChoice`: the candidate that comes before all others.
* `findLiteral?_firstChoice`: **the literal that a text leads to.**
* `nested_literal_passedOver`: a literal inside an array that comes after one outside of it.
-/

namespace MarkupEdit.Edit

open MarkupEdit.Text MarkupEdit.Tree

variable {query : String} {f g : Found} {found : LiteralMatch} {node : Node} {place : Place}

/-! ## Candidates -/

/-- A node that the search does not go into. -/
def isSealed (n : Node) : Bool := n.kind == .importStatement || n.kind == .jsxAttribute

/-- A literal whose whole value is a text but for blanks and letter case. It is in no import and in no
attribute, and it is no key of an object. Right below an export it would be the name of a module. -/
structure Candidate (query : String) (f : Found) : Prop where
  literal : f.node.kind = .string ∨ f.node.kind = .templateString
  outside : ∀ n ∈ f.place.above, n.kind ≠ .importStatement ∧ n.kind ≠ .jsxAttribute
  notModule : ∀ n, f.place.parent? = some n → n.kind ≠ .exportStatement
  notKey : f.node.field ≠ some "key"
  holds : ∃ value, f.node.staticValue? = some value ∧
    lowercase (normalized value) = lowercase query

/-- Whether a node is an item of an array. -/
def isItem (f : Found) : Bool := (f.place.parent?.map (·.kind == .array)).getD false

/-- Whether a node is inside an array, at any depth. -/
def isInsideArray (f : Found) : Bool := f.place.above.any (·.kind == .array)

/-- Whether a literal holds a text in the same letter case. -/
def holdsExactly (query : String) (f : Found) : Bool :=
  (f.node.staticValue?.map (normalized · == query)).getD false

/-- The match of a literal with a text, if the search comes to it. -/
def reachedMatch? (query : String) (f : Found) : Option LiteralMatch :=
  if f.place.above.any isSealed then none
  else if f.node.kind == .string || f.node.kind == .templateString then
    literalMatch? query f.node f.place
  else none

theorem any_isSealed_iff {l : List Node} :
    l.any isSealed = false ↔ ∀ n ∈ l, n.kind ≠ .importStatement ∧ n.kind ≠ .jsxAttribute := by
  simp [isSealed]

theorem getD_kind_eq_false_iff {parent? : Option Node} {kind : Kind} :
    (parent?.map (·.kind == kind)).getD false = false ↔ ∀ n, parent? = some n → n.kind ≠ kind := by
  cases parent? <;> simp

/-- A match says where its literal is and how well it matches. -/
theorem literalMatch?_eq_some_iff :
    literalMatch? query f.node f.place = some found ↔
      (∀ n, f.place.parent? = some n → n.kind ≠ .exportStatement) ∧ f.node.field ≠ some "key" ∧
        f.node.staticValue? = some found.value ∧
        lowercase (normalized found.value) = lowercase query ∧
        found.path = f.place.path ∧ found.isExact = holdsExactly query f ∧
        found.isInArray = isItem f := by
  unfold literalMatch?
  dsimp only
  split
  · next h =>
    refine iff_of_false (fun hnone => nomatch hnone) fun ⟨hmodule, hkey, _⟩ => ?_
    rw [getD_kind_eq_false_iff.mpr hmodule, Bool.false_or, beq_iff_eq] at h
    exact hkey h
  · next h =>
    rw [Bool.or_eq_true, not_or, Bool.not_eq_true, getD_kind_eq_false_iff, beq_iff_eq] at h
    rw [and_iff_right h.1, and_iff_right h.2, Option.bind_eq_some_iff]
    constructor
    · rintro ⟨value, hvalue, hmatch⟩
      obtain ⟨hholds, hfound⟩ := Option.ite_none_right_eq_some.mp hmatch
      cases hfound
      -- a text in the same letter case is one in any
      have hlower : lowercase (normalized value) = lowercase query := by
        rcases Bool.or_eq_true_iff.mp hholds with hexact | hlower
        · rw [beq_iff_eq.mp hexact]
        · exact beq_iff_eq.mp hlower
      refine ⟨hvalue, hlower, rfl, ?_, rfl⟩
      rw [holdsExactly, hvalue]
      rfl
    · rintro ⟨hvalue, hlower, hpath, hexact, hitem⟩
      refine ⟨found.value, hvalue, ?_⟩
      rw [if_pos (Bool.or_eq_true_iff.mpr (.inr (beq_iff_eq.mpr hlower)))]
      rw [holdsExactly, hvalue] at hexact
      obtain ⟨path, value, isExact, isInArray⟩ := found
      dsimp only at hvalue hpath hexact hitem ⊢
      subst hpath hexact hitem
      rfl

/-- **The literals that are matched are the candidates.** -/
theorem reachedMatch?_eq_some_iff :
    reachedMatch? query f = some found ↔
      Candidate query f ∧ f.node.staticValue? = some found.value ∧ found.path = f.place.path ∧
        found.isExact = holdsExactly query f ∧ found.isInArray = isItem f := by
  unfold reachedMatch?
  split
  · next hsealed =>
    refine iff_of_false (fun hnone => nomatch hnone) fun ⟨hcandidate, _⟩ => ?_
    rw [any_isSealed_iff.mpr hcandidate.outside] at hsealed
    cases hsealed
  next hopen =>
  have hopen := any_isSealed_iff.mp (Bool.eq_false_iff.mpr hopen)
  split
  · next hkind =>
    rw [Bool.or_eq_true, beq_iff_eq, beq_iff_eq] at hkind
    rw [literalMatch?_eq_some_iff]
    constructor
    · rintro ⟨hmodule, hkey, hvalue, hlower, hmatch⟩
      exact ⟨⟨hkind, hopen, hmodule, hkey, found.value, hvalue, hlower⟩, hvalue, hmatch⟩
    · rintro ⟨⟨-, -, hmodule, hkey, value, hheld, hlower⟩, hvalue, hmatch⟩
      obtain rfl : value = found.value := Option.some.inj (hheld.symm.trans hvalue)
      exact ⟨hmodule, hkey, hvalue, hlower, hmatch⟩
  · next hkind =>
    rw [Bool.or_eq_true, beq_iff_eq, beq_iff_eq] at hkind
    exact iff_of_false (fun hnone => nomatch hnone) fun h => hkind h.1.literal

/-- A candidate has a match. -/
theorem exists_reachedMatch? (h : Candidate query f) : ∃ found, reachedMatch? query f = some found := by
  obtain ⟨value, hvalue, -⟩ := h.holds
  exact ⟨⟨f.place.path, value, holdsExactly query f, isItem f⟩,
    reachedMatch?_eq_some_iff.mpr ⟨h, hvalue, rfl, rfl, rfl⟩⟩

/-! ## The walk for literals -/

/-- At a node the walk takes the match of the node, and it stays out of sealed nodes. -/
theorem literalHook_eq (h : place.above.any isSealed = false) (state : List LiteralMatch) :
    literalHook query node place state =
      (state ++ (reachedMatch? query ⟨node, place⟩).toList,
        { Control.none with skip := isSealed node }) := by
  rw [reachedMatch?, if_neg (by rw [h]; exact Bool.false_ne_true), isSealed]
  unfold literalHook
  split
  · next hkind => simp [hkind]
  · next hkind => simp [hkind]
  · next hkind => simp [hkind, Control.none]
  · next hkind => simp [hkind, Control.none]
  · next himport hattribute hstring htemplate =>
    have himport : ¬ node.kind = .importStatement := himport
    have hattribute : ¬ node.kind = .jsxAttribute := hattribute
    have hstring : ¬ node.kind = .string := hstring
    have htemplate : ¬ node.kind = .templateString := htemplate
    simp [himport, hattribute, hstring, htemplate, Control.none]

theorem enterNode_matches {limit : Nat} (hdepth : place.depth ≤ limit)
    (hopen : place.above.any isSealed = false) (t : Traversal (List LiteralMatch)) :
    enterNode (literalVisitor query) limit node place t =
      ({ t with
          visited := t.visited + 1
          state := t.state ++ (reachedMatch? query ⟨node, place⟩).toList },
        if isSealed node then .leave else .descend) := by
  rw [enterNode_eq (Nat.not_lt.mpr hdepth) (literalHook_eq hopen t.state)]
  cases isSealed node <;> rfl

/-- Inside a sealed node nothing is matched. -/
theorem filterMap_preorderAll_of_isSealed (h : isSealed node = true) (index : Nat)
    (children : List Node) :
    (preorderAll node place index children).filterMap (reachedMatch? query) = [] := by
  refine List.filterMap_eq_nil_iff.mpr fun f hf => ?_
  obtain ⟨i, child, -, hmem⟩ := mem_preorderAll_iff.mp hf
  obtain ⟨path, -, -, habove, -⟩ := (mem_preorder_iff.mp hmem).spec
  have hnode : node ∈ f.place.above := by
    rw [← List.mem_reverse]
    show node ∈ f.place.ancestors
    rw [habove, Place.ancestors_child]
    simp
  exact if_pos (List.any_eq_true.mpr ⟨node, hnode, h⟩)

mutual

/-- **The walk finds the candidates**, in the order of the document. -/
theorem tour_matches (query : String) (limit : Nat) (node : Node) (place : Place)
    (t : Traversal (List LiteralMatch)) (hdepth : place.depth + node.height ≤ limit)
    (hopen : place.above.any isSealed = false) :
    (tour (literalVisitor query) limit node place t).1.state =
        t.state ++ (preorder node place).filterMap (reachedMatch? query) ∧
      (tour (literalVisitor query) limit node place t).2 = true := by
  have hfirst : ∀ rest : List Found,
      (⟨node, place⟩ :: rest).filterMap (reachedMatch? query) =
        (reachedMatch? query ⟨node, place⟩).toList ++ rest.filterMap (reachedMatch? query) := by
    intro rest
    rw [List.filterMap_cons]
    cases reachedMatch? query ⟨node, place⟩ <;> rfl
  rw [tour_eq, enterNode_matches (by omega) hopen, preorder_eq, hfirst, ← List.append_assoc]
  cases hsealed : isSealed node with
  | true =>
    rw [filterMap_preorderAll_of_isSealed hsealed, List.append_nil, if_pos rfl]
    dsimp only
    rw [leaveNode_literal]
    exact ⟨rfl, rfl⟩
  | false =>
    rw [node.height_eq] at hdepth
    rw [if_neg Bool.false_ne_true]
    dsimp only
    generalize hentered : ({ t with
      visited := t.visited + 1
      state := t.state ++ (reachedMatch? query ⟨node, place⟩).toList } : Traversal _) = entered
    obtain ⟨hstate, hflag⟩ := tourAll_matches query limit node place 0 node.children entered hdepth
      (by rw [List.any_cons, hsealed, hopen]; rfl)
    rcases htour : tourAll (literalVisitor query) limit node place 0 node.children entered with
      ⟨t', more⟩
    rw [htour] at hstate hflag
    cases hflag
    dsimp only
    rw [leaveNode_literal]
    exact ⟨by rw [hstate, ← hentered], rfl⟩
termination_by 2 * node.count
decreasing_by
  have := node.count_eq
  omega

theorem tourAll_matches (query : String) (limit : Nat) (parent : Node) (place : Place) (index : Nat)
    (children : List Node) (t : Traversal (List LiteralMatch))
    (hdepth : place.depth + Node.heightAll children ≤ limit)
    (hopen : (parent :: place.above).any isSealed = false) :
    (tourAll (literalVisitor query) limit parent place index children t).1.state =
        t.state ++ (preorderAll parent place index children).filterMap (reachedMatch? query) ∧
      (tourAll (literalVisitor query) limit parent place index children t).2 = true := by
  match children with
  | [] => exact ⟨(List.append_nil _).symm, rfl⟩
  | child :: rest =>
    rw [Node.heightAll] at hdepth
    have hchild : (place.child parent index).depth = place.depth + 1 := rfl
    obtain ⟨hstate, hflag⟩ := tour_matches query limit child (place.child parent index) t
      (by rw [hchild]; omega) hopen
    rw [tourAll]
    rcases htour : tour (literalVisitor query) limit child (place.child parent index) t with ⟨t', more⟩
    rw [htour] at hstate hflag
    cases hflag
    obtain ⟨hrest, hmore⟩ := tourAll_matches query limit parent place (index + 1) rest t'
      (by omega) hopen
    refine ⟨?_, hmore⟩
    rw [preorderAll, List.filterMap_append, ← List.append_assoc, ← hstate]
    exact hrest
termination_by 2 * Node.countAll children + 1
decreasing_by
  all_goals
    have := child.count_eq
    simp only [Node.countAll]
    omega

end

variable {tree : SourceTree} {config : Config}

/-- Where nothing is too deep, the matches are those of the candidates. -/
theorem literalMatches_eq (hdepth : tree.root.height ≤ config.maxDepth) :
    literalMatches tree query config =
      (preorder tree.root Place.root).filterMap (reachedMatch? query) := by
  have hroot : Place.root.depth + tree.root.height ≤ config.maxDepth := by
    rw [show Place.root.depth = 0 from rfl]
    omega
  rw [literalMatches, traverse_eq_tour]
  exact (tour_matches query config.maxDepth tree.root Place.root (Traversal.start []) hroot rfl).1

/-! ## The best match -/

theorem bestLiteral?_eq_none_iff {rules : LiteralConfig} {l : List LiteralMatch} :
    bestLiteral? rules l = none ↔ l = [] := by
  cases l with
  | nil => exact iff_of_true rfl rfl
  | cons first rest =>
    refine iff_of_false (fun h => ?_) (List.cons_ne_nil _ _)
    rw [bestLiteral?] at h
    split at h
    · cases h
    · split at h <;> cases h

/-- **Of several matches the first of the lowest rank is kept.** -/
theorem bestLiteral?_spec {rules : LiteralConfig} {l : List LiteralMatch}
    (h : bestLiteral? rules l = some found) :
    ∃ front back, l = front ++ found :: back ∧
      (∀ other ∈ front, found.rank rules < other.rank rules) ∧
      ∀ other ∈ back, found.rank rules ≤ other.rank rules := by
  induction l generalizing found with
  | nil => cases h
  | cons first rest ih =>
    rw [bestLiteral?] at h
    split at h
    · next hnone =>
      cases h
      rw [bestLiteral?_eq_none_iff.mp hnone]
      exact ⟨[], [], rfl, fun _ hmem => absurd hmem List.not_mem_nil,
        fun _ hmem => absurd hmem List.not_mem_nil⟩
    · next best hbest =>
      obtain ⟨front, back, rfl, hfront, hback⟩ := ih hbest
      split at h
      · next hlt =>
        cases h
        refine ⟨first :: front, back, rfl, fun other hmem => ?_, hback⟩
        rcases List.mem_cons.mp hmem with rfl | hmem
        · exact hlt
        · exact hfront other hmem
      · next hle =>
        cases h
        -- nothing behind it has a lower rank than the best of the rest
        refine ⟨[], front ++ best :: back, rfl, fun _ hmem => absurd hmem List.not_mem_nil,
          fun other hmem => ?_⟩
        rcases List.mem_append.mp hmem with hmem | hmem
        · have := hfront other hmem
          omega
        · rcases List.mem_cons.mp hmem with rfl | hmem
          · omega
          · have := hback other hmem
            omega

/-- Two matches are of one class if arrays are not preferred, or if both or none are in an array. -/
def SameClass (prefersArrays : Bool) (f g : Found) : Prop :=
  prefersArrays = true → isItem f = isItem g

/-- What a rank that is no higher says. -/
theorem rank_le {rules : LiteralConfig} {other : LiteralMatch}
    (h : found.rank rules ≤ other.rank rules) :
    (rules.preferArrays = true → other.isInArray = true → found.isInArray = true) ∧
      ((rules.preferArrays = true → other.isInArray = found.isInArray) →
        other.isExact = true → found.isExact = true) := by
  revert h
  rw [LiteralMatch.rank, LiteralMatch.rank]
  cases rules.preferArrays <;> cases found.isInArray <;> cases other.isInArray <;>
    cases found.isExact <;> cases other.isExact <;> decide

/-- Two matches of one class in one letter case have the same rank. -/
theorem rank_eq {rules : LiteralConfig} {other : LiteralMatch}
    (hclass : rules.preferArrays = true → other.isInArray = found.isInArray)
    (hexact : other.isExact = found.isExact) : other.rank rules = found.rank rules := by
  rw [LiteralMatch.rank, LiteralMatch.rank, hexact]
  cases hprefer : rules.preferArrays with
  | false => rfl
  | true => rw [hclass hprefer]

/-! ## The first choice -/

/-- **A candidate comes before all others:** it is an item of an array if arrays are preferred and some
candidate is; of its class it is in the same letter case as the text if some candidate is; and of
those it is the first in the document. -/
structure FirstChoice (tree : SourceTree) (query : String) (prefersArrays : Bool) (f : Found) :
    Prop where
  mem : f ∈ preorder tree.root Place.root
  candidate : Candidate query f
  item : prefersArrays = true → ∀ g ∈ preorder tree.root Place.root, Candidate query g →
    isItem g = true → isItem f = true
  exact : ∀ g ∈ preorder tree.root Place.root, Candidate query g → SameClass prefersArrays g f →
    holdsExactly query g = true → holdsExactly query f = true
  first : ∀ g ∈ preorder tree.root Place.root, Candidate query g → SameClass prefersArrays g f →
    holdsExactly query g = holdsExactly query f → (f.place.path.order g.place.path).isLE

/-- Of two nodes of a tree, neither of which is behind the other, both are the same. -/
theorem eq_of_isLE {root : Node} {p : Place} (hf : f ∈ preorder root p) (hg : g ∈ preorder root p)
    (hle : (f.place.path.order g.place.path).isLE)
    (hge : (g.place.path.order f.place.path).isLE) : f = g := by
  have hpairs := List.pairwise_iff_getElem.mp (pairwise_preorder root p)
  obtain ⟨i, hi, rfl⟩ := List.getElem_of_mem hf
  obtain ⟨j, hj, rfl⟩ := List.getElem_of_mem hg
  rcases Nat.lt_trichotomy i j with hlt | rfl | hlt
  · exact absurd hge (hpairs i j hi hj hlt).not_isLE
  · rfl
  · exact absurd hle (hpairs j i hj hi hlt).not_isLE

/-- There is only one first choice. -/
theorem FirstChoice.unique {prefersArrays : Bool} (hf : FirstChoice tree query prefersArrays f)
    (hg : FirstChoice tree query prefersArrays g) : f = g := by
  have hclass : SameClass prefersArrays g f := fun hprefers =>
    Bool.eq_iff_iff.mpr ⟨hf.item hprefers g hg.mem hg.candidate,
      hg.item hprefers f hf.mem hf.candidate⟩
  have hclass' : SameClass prefersArrays f g := fun hprefers => (hclass hprefers).symm
  have hexact : holdsExactly query g = holdsExactly query f :=
    Bool.eq_iff_iff.mpr ⟨hf.exact g hg.mem hg.candidate hclass,
      hg.exact f hf.mem hf.candidate hclass'⟩
  exact eq_of_isLE hf.mem hg.mem (hf.first g hg.mem hg.candidate hclass hexact)
    (hg.first f hf.mem hf.candidate hclass' hexact.symm)

/-- The match that is kept has the lowest rank, and those of its rank are behind it in the document. -/
theorem exists_of_bestLiteral? {rules : LiteralConfig}
    (h : bestLiteral? rules ((preorder tree.root Place.root).filterMap (reachedMatch? query)) =
      some found) :
    ∃ f ∈ preorder tree.root Place.root, reachedMatch? query f = some found ∧
      ∀ g ∈ preorder tree.root Place.root, ∀ other, reachedMatch? query g = some other →
        found.rank rules ≤ other.rank rules ∧
          (other.rank rules = found.rank rules → (f.place.path.order g.place.path).isLE) := by
  obtain ⟨front, back, hsplit, hfront, hback⟩ := bestLiteral?_spec h
  obtain ⟨before, rest, hnodes, rfl, hrest⟩ := List.filterMap_eq_append_iff.mp hsplit
  obtain ⟨passed, f, behind, rfl, hpassed, hf, rfl⟩ := List.filterMap_eq_cons_iff.mp hrest
  have hmem : f ∈ preorder tree.root Place.root := by
    rw [hnodes]
    simp
  refine ⟨f, hmem, hf, fun g hg other hother => ?_⟩
  have horder := pairwise_preorder tree.root Place.root
  rw [hnodes] at hg horder
  rcases List.mem_append.mp hg with hg | hg
  · have hlt := hfront other (List.mem_filterMap.mpr ⟨g, hg, hother⟩)
    exact ⟨Nat.le_of_lt hlt, fun heq => absurd heq (Nat.ne_of_gt hlt)⟩
  rcases List.mem_append.mp hg with hg | hg
  · rw [hpassed g hg] at hother
    cases hother
  rcases List.mem_cons.mp hg with rfl | hg
  · rw [hf] at hother
    cases hother
    exact ⟨Nat.le_refl _, fun _ => Path.isLE_order_self _⟩
  · refine ⟨hback other (List.mem_filterMap.mpr ⟨g, hg, hother⟩), fun _ => ?_⟩
    have hcons := (List.pairwise_append.mp (List.pairwise_append.mp horder).2.1).2.1
    exact (List.rel_of_pairwise_cons hcons hg).isLE

/-- **The best match is that of the first choice.** -/
theorem exists_firstChoice {rules : LiteralConfig}
    (h : bestLiteral? rules ((preorder tree.root Place.root).filterMap (reachedMatch? query)) =
      some found) :
    ∃ f, FirstChoice tree query rules.preferArrays f ∧ reachedMatch? query f = some found := by
  obtain ⟨f, hmem, hf, hlowest⟩ := exists_of_bestLiteral? h
  obtain ⟨hcandidate, -, -, hexact, hitem⟩ := reachedMatch?_eq_some_iff.mp hf
  have hothers : ∀ g ∈ preorder tree.root Place.root, Candidate query g →
      ∃ other : LiteralMatch, other.isExact = holdsExactly query g ∧ other.isInArray = isItem g ∧
        found.rank rules ≤ other.rank rules ∧
          (other.rank rules = found.rank rules → (f.place.path.order g.place.path).isLE) := by
    intro g hg hcandidate
    obtain ⟨other, hother⟩ := exists_reachedMatch? hcandidate
    obtain ⟨-, -, -, hotherExact, hotherItem⟩ := reachedMatch?_eq_some_iff.mp hother
    exact ⟨other, hotherExact, hotherItem, hlowest g hg other hother⟩
  refine ⟨f, ⟨hmem, hcandidate, fun hprefers g hg hcand hgitem => ?_,
    fun g hg hcand hclass hgexact => ?_, fun g hg hcand hclass hsame => ?_⟩, hf⟩
  · obtain ⟨other, -, hother, hrank, -⟩ := hothers g hg hcand
    rw [← hitem]
    exact (rank_le hrank).1 hprefers (hother.trans hgitem)
  · obtain ⟨other, hotherExact, hotherItem, hrank, -⟩ := hothers g hg hcand
    rw [← hexact]
    refine (rank_le hrank).2 (fun hprefers => ?_) (hotherExact.trans hgexact)
    rw [hotherItem, hitem, hclass hprefers]
  · obtain ⟨other, hotherExact, hotherItem, -, hfirst⟩ := hothers g hg hcand
    exact hfirst (rank_eq (fun hprefers => by rw [hotherItem, hitem, hclass hprefers])
      (by rw [hotherExact, hexact, hsame]))

/-- **The literal that a text leads to is the first choice.** Where nothing is too deep, some literal
is found exactly if the text is not blank and there is a candidate, and what is found is the candidate
that comes before all others. -/
theorem findLiteral?_firstChoice (tree : SourceTree) (text : String) (config : Config)
    (hdepth : tree.root.height ≤ config.maxDepth) :
    (findLiteral? tree text config = none ↔
        sought text = "" ∨ ∀ f ∈ preorder tree.root Place.root, ¬ Candidate (sought text) f) ∧
      ∀ found, findLiteral? tree text config = some found ↔
        sought text ≠ "" ∧ ∃ f, FirstChoice tree (sought text) config.literals.preferArrays f ∧
          f.node.staticValue? = some found.value ∧ found.path = f.place.path ∧
          found.isExact = holdsExactly (sought text) f ∧ found.isInArray = isItem f := by
  have hfind : findLiteral? tree text config =
      if sought text = "" then none
      else bestLiteral? config.literals
        ((preorder tree.root Place.root).filterMap (reachedMatch? (sought text))) := by
    rw [findLiteral?, literalMatches_eq hdepth]
    simp only [beq_iff_eq]
    rfl
  by_cases hempty : sought text = ""
  · rw [hfind, if_pos hempty]
    exact ⟨iff_of_true rfl (.inl hempty),
      fun found => iff_of_false (Option.some_ne_none found).symm fun h => h.1 hempty⟩
  rw [hfind, if_neg hempty]
  constructor
  · rw [bestLiteral?_eq_none_iff, List.filterMap_eq_nil_iff]
    constructor
    · intro hnone
      refine .inr fun f hf hcandidate => ?_
      obtain ⟨found, hfound⟩ := exists_reachedMatch? hcandidate
      rw [hnone f hf] at hfound
      cases hfound
    · intro hnone f hf
      refine Option.eq_none_iff_forall_ne_some.mpr fun found hfound => ?_
      exact hnone.resolve_left hempty f hf (reachedMatch?_eq_some_iff.mp hfound).1
  · intro found
    constructor
    · intro h
      obtain ⟨f, hfirst, hmatch⟩ := exists_firstChoice h
      exact ⟨hempty, f, hfirst, (reachedMatch?_eq_some_iff.mp hmatch).2⟩
    · rintro ⟨-, f, hfirst, hmatch⟩
      have hf := reachedMatch?_eq_some_iff.mpr ⟨hfirst.candidate, hmatch⟩
      -- something is found, and it is the only first choice
      cases hbest : bestLiteral? config.literals
          ((preorder tree.root Place.root).filterMap (reachedMatch? (sought text))) with
      | none =>
        have hnil := List.filterMap_eq_nil_iff.mp (bestLiteral?_eq_none_iff.mp hbest)
        rw [hnil f hfirst.mem] at hf
        cases hf
      | some best =>
        obtain ⟨g, hg, hmatch'⟩ := exists_firstChoice hbest
        rw [← hfirst.unique hg, hf] at hmatch'
        exact hmatch'.symm

/-! ## Two literals of one text -/

/-- A literal, and one with the same text that is the value of a pair in an object in an array. -/
def arrayText : String := "const a = \"Home\";\nconst b = [\x7b c: \"Home\" \x7d];\n"

/-- The declaration of a constant with a value. -/
def constant (name : String) (value : Node) : Node :=
  .branch (.other "lexical_declaration")
    [(Node.token "const").withField "kind",
      (Node.branch (.other "variable_declarator")
        [(Node.leaf .identifier name).withField "name", (Node.token "=").withLeading " ",
          (value.withField "value").withLeading " "]).withLeading " ",
      .token ";"]

/-- The nodes of `arrayText`. -/
def arrayNode : Node :=
  { Sketch.program
      [constant "a" (Sketch.string "\"Home\""),
        (constant "b" (.branch .array
          [.token "[", .objectLiteral [("c", Sketch.string "\"Home\"")],
            .token "]"])).withLeading "\n"] with
    trailing := "\n" }

/-- The tree of `arrayText`. -/
def arrayTree : SourceTree := .sketch arrayText arrayNode

theorem findLiteral?_firstChoice_home :
    arrayTree.root.height ≤ ({} : Config).maxDepth ∧
      (findLiteral? arrayTree "Home" {} = none ↔
        sought "Home" = "" ∨
          ∀ f ∈ preorder arrayTree.root Place.root, ¬ Candidate (sought "Home") f) ∧
      ∀ found, findLiteral? arrayTree "Home" {} = some found ↔
        sought "Home" ≠ "" ∧ ∃ f, FirstChoice arrayTree (sought "Home") true f ∧
          f.node.staticValue? = some found.value ∧ found.path = f.place.path ∧
          found.isExact = holdsExactly (sought "Home") f ∧ found.isInArray = isItem f := by
  have hdepth : arrayTree.root.height ≤ ({} : Config).maxDepth := by decide +kernel
  exact ⟨hdepth, findLiteral?_firstChoice arrayTree "Home" {} hdepth⟩

/-- **A literal inside an array is passed over.** Both literals hold the text and may be edited, and
only the second is inside an array; but it is no item of the array, so the first one is found. -/
theorem nested_literal_passedOver :
    arrayTree.ReadFrom arrayText ∧
      arrayTree.root.height ≤ ({} : Config).maxDepth ∧
      (∃ f ∈ preorder arrayTree.root Place.root,
        Candidate (sought "Home") f ∧ isInsideArray f = true) ∧
      findLiteral? arrayTree "Home" {} = some ⟨[0, 1, 2], "Home", true, false⟩ ∧
      ∀ f ∈ preorder arrayTree.root Place.root, f.place.path = [0, 1, 2] →
        isInsideArray f = false := by
  have hread : arrayTree.ReadFrom arrayText :=
    readFrom_sketch (by decide) (by decide)
  have hmatched : ∃ f ∈ preorder arrayTree.root Place.root,
      (reachedMatch? (sought "Home") f).isSome ∧ isInsideArray f = true := by decide +kernel
  obtain ⟨f, hf, hmatch, hinside⟩ := hmatched
  obtain ⟨found, hfound⟩ := Option.isSome_iff_exists.mp hmatch
  exact ⟨hread, by decide +kernel, ⟨f, hf, (reachedMatch?_eq_some_iff.mp hfound).1, hinside⟩,
    by decide +kernel, by decide +kernel⟩

end MarkupEdit.Edit
