import Mathlib.Data.List.InsertIdx
import MarkupEdit.Edit.StyleEdit
import MarkupEdit.Proofs.Edit.Identity

/-!
# Changes of a tag

Attributes come and go, and the name and the id in a tag stay, if none of them is the id. No element
is lost either, if there is none in an attribute that goes.

* `Node.essential`: the children of a tag that tell its name and its id, and those with elements.
* `TagAmong`, `tag_cases`: where the tag of an element is.
* `Retag`: a tag is another one but for the other children.
* `alike_updateOpening`: **an element with such a change of its tag stays the same element.**
* `Reset`: a tag is another one with a change of one attribute.
* `reset_attributeChange`: **setting an attribute is such a change.**
-/

namespace MarkupEdit.Edit

/-! ## Changes of lists that a filter does not see -/

section

variable {α : Type} {q : α → Bool} {l : List α} {a b : α} {i : Nat}

theorem filter_eraseIdx_of_neg (ha : l[i]? = some a) (h : q a = false) :
    (l.eraseIdx i).filter q = l.filter q := by
  induction l generalizing i with
  | nil => cases ha
  | cons d l ih =>
    cases i with
    | zero =>
      cases ha
      rw [List.eraseIdx_cons_zero, List.filter_cons, h]
      rfl
    | succ i => rw [List.eraseIdx_cons_succ, List.filter_cons, List.filter_cons, ih ha]

theorem filter_set_of_neg (ha : l[i]? = some a) (h : q a = false) (hb : q b = false) :
    (l.set i b).filter q = l.filter q := by
  induction l generalizing i with
  | nil => cases ha
  | cons d l ih =>
    cases i with
    | zero =>
      cases ha
      rw [List.set_cons_zero, List.filter_cons, List.filter_cons, h, hb]
      rfl
    | succ i => rw [List.set_cons_succ, List.filter_cons, List.filter_cons, ih ha]

theorem filter_insertIdx_of_neg (hb : q b = false) (i : Nat) (l : List α) :
    (l.insertIdx i b).filter q = l.filter q := by
  induction l generalizing i with
  | nil =>
    cases i with
    | zero => rw [List.insertIdx_zero, List.filter_cons, hb]; rfl
    | succ i => rfl
  | cons d l ih =>
    cases i with
    | zero => rw [List.insertIdx_zero, List.filter_cons, hb]; rfl
    | succ i => rw [List.insertIdx_succ_cons, List.filter_cons, List.filter_cons, ih]

/-- What is unique in a list is what a search finds. -/
theorem find?_of_length_le (h : (l.filter q).length ≤ 1) (ha : a ∈ l) (hq : q a = true) :
    l.find? q = some a := by
  have hmem : a ∈ l.filter q := List.mem_filter.mpr ⟨ha, hq⟩
  obtain ⟨b, hb⟩ := List.length_eq_one_iff.mp
    (Nat.le_antisymm h (List.length_pos_of_mem hmem))
  rw [hb, List.mem_singleton] at hmem
  rw [← List.head?_filter, hb, hmem]
  rfl

/-- The first element with a property, between those in front of it and those behind it. -/
theorem exists_split_of_findIdx? (h : l.findIdx? q = some i) :
    ∃ front a back, l = front ++ a :: back ∧ front.length = i ∧ q a = true ∧
      ∀ d ∈ front, q d = false := by
  induction l generalizing i with
  | nil => cases h
  | cons d l ih =>
    rw [List.findIdx?_cons] at h
    split at h
    · next hd =>
      cases h
      exact ⟨[], d, l, rfl, rfl, hd, fun _ h => nomatch h⟩
    · next hd =>
      obtain ⟨j, hj, rfl⟩ := Option.map_eq_some_iff.mp h
      obtain ⟨front, a, back, rfl, rfl, ha, hfront⟩ := ih hj
      refine ⟨d :: front, a, back, rfl, rfl, ha, fun e he => ?_⟩
      rcases List.mem_cons.mp he with rfl | he
      · exact Bool.not_eq_true _ |>.mp hd
      · exact hfront e he

theorem find?_append_cons {front back : List α} (ha : q a = true)
    (hfront : ∀ d ∈ front, q d = false) : (front ++ a :: back).find? q = some a := by
  have hnone : front.find? q = none :=
    List.find?_eq_none.mpr fun d hd => by rw [hfront d hd]; exact Bool.false_ne_true
  rw [List.find?_append, hnone, Option.none_or, List.find?_cons_of_pos ha]

end

end MarkupEdit.Edit

namespace MarkupEdit.Tree.Node

open MarkupEdit.Text MarkupEdit.Edit

variable {id : String} {m n c o o' : Node} {l : List Node}

/-! ## Nodes without elements -/

/-- What is in a node is told by its kind and its children. -/
theorem identities_congr (hkind : m.kind = n.kind) (hchildren : m.children = n.children) :
    m.identities id = n.identities id := by
  rw [identities_eq, identities_eq id n, hchildren, identity?, identity?, opening?, opening?, hkind]
  split
  · rw [Option.bind_some, Option.bind_some, signature?, signature?, childByField?, childByField?,
      hchildren]
  · rw [childOfKind?, childOfKind?, hchildren]
  · rfl

theorem identities_withLeading (n : Node) (leading : String) :
    (n.withLeading leading).identities id = n.identities id :=
  identities_congr rfl rfl

theorem identities_of_children_eq_nil (h : n.children = []) : n.identities id = [] := by
  rw [identities_eq, h, identity?, opening?]
  split
  · rw [Option.bind_some, signature?, childByField?, h]
    rfl
  · rw [childOfKind?, h]
    rfl
  · rfl

theorem identity?_of_not_isElement (h : n.kind.isElement = false) : n.identity? id = none := by
  rw [identity?, opening?]
  split
  · next hkind => rw [hkind] at h; cases h
  · next hkind => rw [hkind] at h; cases h
  · rfl

theorem identities_of_not_isElement (h : n.kind.isElement = false) :
    n.identities id = identitiesAll id n.children := by
  rw [identities_eq, identity?_of_not_isElement h]
  rfl

theorem identitiesAll_eq_nil (h : ∀ c ∈ l, c.identities id = []) : identitiesAll id l = [] := by
  rw [identitiesAll_eq_flatMap]
  exact List.flatMap_eq_nil_iff.mpr h

/-! ## Nodes in order -/

/-- What the grammar says of a node is told by its kind, its text and its children. -/
theorem OrderlyBelow.congr (h : n.OrderlyBelow) (hkind : m.kind = n.kind) (htext : m.text = n.text)
    (hchildren : m.children = n.children) : m.OrderlyBelow := by
  obtain ⟨kind, field, span, leading, text, children, trailing⟩ := m
  obtain ⟨kind', field', span', leading', text', children', trailing'⟩ := n
  dsimp only at hkind htext hchildren
  subst hkind htext hchildren
  have hparted : Node.Parted ⟨kind, field, span, leading, text, children, trailing⟩ :=
    ⟨h.self.name, h.self.head, h.self.before, h.self.value, h.self.pair, h.self.key, h.self.entry⟩
  exact .intro ⟨hparted, h.self.leaf, h.self.tag⟩ fun c hc => h.child hc

/-- What has something in it has no text of its own. -/
theorem Orderly.text_of_mem (h : n.Orderly) (hc : c ∈ n.children) : n.text = none := by
  cases htext : n.text with
  | none => rfl
  | some text =>
    rw [h.leaf (.inr (.inr (.inr (by rw [htext]; rfl))))] at hc
    cases hc

theorem orderlyBelow_of_children_eq_nil (h : n.children = [])
    (hkind : n.kind.isOpening = false) : n.OrderlyBelow := by
  have hbehind : n.behindEquals = [] := by rw [behindEquals, h]; rfl
  have hclosed : ¬ n.kind.isOpening = true := by rw [hkind]; exact Bool.false_ne_true
  have hnone : ∀ c, c ∉ n.children := fun c => by rw [h]; exact List.not_mem_nil
  refine .intro ?_ fun c hc => absurd hc (hnone c)
  refine ⟨⟨?name, ?head, ?before, ?value, ?pair, ?key, ?entry⟩, ?leaf, ?tag⟩
  case leaf => exact fun _ => h
  case tag => exact fun hopening => absurd hopening hclosed
  case name => exact fun hopening => absurd hopening hclosed
  case head => exact fun _ c hc => absurd (List.mem_of_head? hc) (hnone c)
  case before => exact fun _ => by rw [beforeEquals, h]; rfl
  case value => exact fun _ => by rw [hbehind]; exact Nat.zero_le _
  case pair => exact fun _ c hc => absurd (List.mem_filter.mp hc).1 (hnone c)
  case key => exact fun _ => by rw [h]; exact Nat.zero_le _
  case entry => exact fun _ => by rw [h]; exact Nat.zero_le _

theorem orderlyBelow_leaf {kind : Kind} (h : kind.isOpening = false) (text : String) :
    (leaf kind text).OrderlyBelow := orderlyBelow_of_children_eq_nil rfl h

/-- Of some kinds the grammar says nothing but that they are no leaves. -/
theorem orderly_of_text_eq_none (htext : n.text = none)
    (h : n.kind = .jsxElement ∨ n.kind = .jsxClosingElement ∨ n.kind = .jsxExpression ∨
      n.kind = .object) : n.Orderly := by
  refine ⟨⟨?name, ?head, ?before, ?value, ?pair, ?key, ?entry⟩, ?leaf, ?tag⟩ <;>
    rcases h with h | h | h | h <;> simp [h, htext, Kind.isVerbatim, Kind.isOpening]

/-! ## Nodes in nodes -/

/-- Nothing is inside tokens and comments. -/
theorem children_of_not_isNamed (horderly : n.Orderly) (h : ¬ n.isNamed = true) :
    n.children = [] := by
  refine horderly.leaf ?_
  by_cases htoken : n.kind = .token
  · exact .inl htoken
  · by_cases hcomment : n.kind = .comment
    · exact .inr (.inl (by rw [hcomment]; rfl))
    · refine absurd ?_ h
      rw [isNamed, bne_iff_ne.mpr htoken, bne_iff_ne.mpr hcomment]
      rfl

/-- No element is in a node that is none and whose named children hold none. -/
theorem identities_of_namedChildren (horderly : n.OrderlyBelow)
    (hidentity : n.identity? id = none) (h : ∀ c ∈ n.namedChildren, c.identities id = []) :
    n.identities id = [] := by
  rw [identities_eq, hidentity]
  refine identitiesAll_eq_nil fun c hc => ?_
  by_cases hnamed : c.isNamed = true
  · exact h c (List.mem_filter.mpr ⟨hc, hnamed⟩)
  · exact identities_of_children_eq_nil (children_of_not_isNamed (horderly.child hc).self hnamed)

theorem identities_of_staticValue? (h : c.Orderly) {text : String}
    (hvalue : c.staticValue? = some text) : c.identities id = [] := by
  refine identities_of_children_eq_nil (h.leaf (.inr (.inr (.inr ?_))))
  unfold staticValue? at hvalue
  split at hvalue
  · cases hvalue
  · next htext => rw [htext]; rfl

mutual

theorem identities_of_isPlain (n : Node) (h : n.isPlain = true) : n.identities id = [] := by
  have hkind : n.kind.isElement = false := by
    rw [isPlain_eq] at h
    cases hk : n.kind.isElement with
    | false => rfl
    | true => rw [hk] at h; cases h
  rw [identities_of_not_isElement hkind]
  exact identitiesAll_of_isPlain n.children fun c hc => isPlain_of_mem h hc
termination_by 2 * n.count
decreasing_by
  have := n.count_eq
  omega

theorem identitiesAll_of_isPlain (l : List Node) (h : ∀ c ∈ l, c.isPlain = true) :
    identitiesAll id l = [] := by
  match l with
  | [] => rfl
  | c :: l =>
    rw [identitiesAll, identities_of_isPlain c (h c List.mem_cons_self),
      identitiesAll_of_isPlain l fun d hd => h d (List.mem_cons_of_mem _ hd)]
    rfl
termination_by 2 * Node.countAll l + 1
decreasing_by
  all_goals
    have := c.count_eq
    simp only [Node.countAll]
    omega

end

/-- No element is in an attribute if none is in its value. -/
theorem identities_of_attribute (horderly : n.OrderlyBelow) (hkind : n.kind = .jsxAttribute)
    (h : ∀ c ∈ n.behindEquals, c.isNamed = true → c.identities id = []) :
    n.identities id = [] := by
  have hidentity : n.identity? id = none := identity?_of_not_isElement (by rw [hkind]; rfl)
  refine identities_of_namedChildren horderly hidentity fun c hc => ?_
  obtain ⟨hmem, hnamed⟩ := List.mem_filter.mp hc
  have hsplit := List.takeWhile_append_dropWhile (p := fun c : Node => !c.isToken "=")
    (l := n.children)
  rw [← hsplit] at hmem
  rcases List.mem_append.mp hmem with hbefore | hbehind
  · -- the name, and what is between it and the equals sign
    cases hlist : n.children with
    | nil => rw [hlist] at hbefore; cases hbefore
    | cons head tail =>
      have hplain := horderly.self.head hkind head (by rw [hlist]; rfl)
      rw [hlist, List.takeWhile_cons] at hbefore
      split at hbefore
      · rcases List.mem_cons.mp hbefore with rfl | hbefore
        · exact identities_of_isPlain c hplain
        · have hnone := horderly.self.before hkind
          rw [beforeEquals, hlist] at hnone
          exact absurd (hnone ▸ List.mem_filter.mpr ⟨hbefore, hnamed⟩) List.not_mem_nil
      · cases hbefore
  · -- the equals sign itself is no named node
    cases hlist : n.children.dropWhile (fun c => !c.isToken "=") with
    | nil => rw [hlist] at hbehind; cases hbehind
    | cons sign rest =>
      rw [hlist] at hbehind
      rcases List.mem_cons.mp hbehind with rfl | hbehind
      · have hsign : (!c.isToken "=") = false := by
          have := List.head?_dropWhile_not (fun c : Node => !c.isToken "=") n.children
          rw [hlist] at this
          exact this
        rw [Bool.not_eq_false', isToken, Bool.and_eq_true, beq_iff_eq] at hsign
        rw [isNamed, hsign.1] at hnamed
        cases hnamed
      · refine h c ?_ hnamed
        rw [behindEquals, hlist]
        exact hbehind

/-! ## What matters in a tag -/

/-- Whether a child of a tag has no part in its name and its id, and holds no element. -/
def isInert (id : String) (c : Node) : Bool :=
  (c.identities id).isEmpty && c.field != some "name" && !c.isAttribute id

/-- The children of a tag that tell its name and its id, and those with elements. -/
def essential (id : String) (l : List Node) : List Node := l.filter (fun c => !c.isInert id)

/-- A search that no inert node ends is a search of the others. -/
theorem find?_essential {p : Node → Bool} (h : ∀ c, p c = true → c.isInert id = false) :
    (essential id l).find? p = l.find? p := by
  rw [essential, List.find?_filter]
  congr 1
  funext c
  by_cases hc : p c = true
  · simp only [h c hc, hc, Bool.not_false, and_self, decide_true]
  · rw [Bool.not_eq_true] at hc
    simp only [hc, Bool.false_eq_true, and_false, decide_false]

theorem identitiesAll_essential : identitiesAll id (essential id l) = identitiesAll id l := by
  induction l with
  | nil => rfl
  | cons c l ih =>
    rw [essential, List.filter_cons]
    split
    · rw [identitiesAll, identitiesAll]
      exact congrArg (c.identities id ++ ·) ih
    · next hc =>
      rw [Bool.not_eq_true, Bool.not_eq_false', isInert, Bool.and_assoc, Bool.and_eq_true] at hc
      rw [identitiesAll, List.isEmpty_iff.mp hc.1, List.nil_append]
      exact ih

/-- **What matters in a tag tells its name and its id.** -/
theorem signature?_of_essential (h : essential id o'.children = essential id o.children) :
    o'.signature? id = o.signature? id := by
  have hname : ∀ c : Node, (c.field == some "name") = true → c.isInert id = false := by
    intro c hc
    rw [isInert, bne, hc, Bool.not_true, Bool.and_false, Bool.false_and]
  have hid : ∀ c : Node, c.isAttribute id = true → c.isInert id = false := by
    intro c hc
    rw [isInert, hc, Bool.not_true, Bool.and_false]
  rw [signature?, signature?, childByField?, childByField?, ← find?_essential hname,
    ← find?_essential hid, h, find?_essential hname, find?_essential hid]

theorem identitiesAll_of_essential (h : essential id o'.children = essential id o.children) :
    identitiesAll id o'.children = identitiesAll id o.children := by
  rw [← identitiesAll_essential, h, identitiesAll_essential]

end MarkupEdit.Tree.Node

namespace MarkupEdit.Edit

open MarkupEdit.Text MarkupEdit.Tree

variable {id : String} {values : Bool} {element : Node} {change : Node → Node}

/-! ## What elements look like -/

theorem isElement_cases {kind : Kind} (h : kind.isElement = true) :
    kind = .jsxElement ∨ kind = .jsxSelfClosingElement := by
  unfold Kind.isElement at h
  split at h
  · exact .inl rfl
  · exact .inr rfl
  · cases h

/-- An element looks like any other with its field. -/
theorem face_of_isElement {m n : Node} (hm : m.kind.isElement = true) (hn : n.kind.isElement = true)
    (hfield : m.field = n.field) : face id values m = face id values n := by
  have hface : ∀ k : Node, k.kind.isElement = true →
      face id values k = ⟨k.field, true, false, none, none, none, none, none⟩ := by
    intro k hk
    have hstatic : k.staticValue? = none := by
      unfold Node.staticValue?
      split
      · rfl
      · split
        · rfl
        · rcases isElement_cases hk with hkind | hkind <;> rw [hkind] <;>
            exact if_neg Bool.false_ne_true
    have hplain : k.isPlain = false := by rw [Node.isPlain_eq, hk]; rfl
    rw [face, hstatic, hplain]
    rcases isElement_cases hk with hkind | hkind <;>
      simp [Node.isNamed, Node.isToken, valueText?, hkind]
  rw [hface m hm, hface n hn, hfield]

/-! ## Where the tag of an element is -/

/-- An element has its opening tag among its children, behind some that are no such tags. -/
structure TagAmong (element : Node) (front : List Node) (tag : Node) (back : List Node) : Prop where
  kind : element.kind = .jsxElement
  children : element.children = front ++ tag :: back
  tag : tag.kind = .jsxOpeningElement
  front : ∀ c ∈ front, (c.kind == .jsxOpeningElement) = false

namespace TagAmong

variable {tag tag' : Node} {front back children : List Node}

theorem opening? (h : TagAmong element front tag back) : element.opening? = some tag := by
  have hfind : (front ++ tag :: back).find? (·.kind == .jsxOpeningElement) = some tag :=
    find?_append_cons (beq_iff_eq.mpr h.tag) h.front
  rw [Node.opening?, h.kind]
  dsimp only
  rw [Node.childOfKind?, h.children, hfind]

theorem updateOpening (h : TagAmong element front tag back) (change : Node → Node) :
    element.updateOpening change = element.withChildren (front ++ change tag :: back) := by
  have hindex : element.children.findIdx? (·.kind == .jsxOpeningElement) = some front.length := by
    have hnone : front.findIdx? (fun c : Node => c.kind == .jsxOpeningElement) = none :=
      List.findIdx?_eq_none_iff.mpr h.front
    rw [h.children, List.findIdx?_append, hnone, Option.none_or, List.findIdx?_cons,
      if_pos (beq_iff_eq.mpr h.tag), Option.map_some, Nat.zero_add]
  rw [Node.updateOpening, h.kind]
  dsimp only
  rw [hindex]
  dsimp only
  rw [h.children, List.modify_eq_take_drop, List.take_left, List.drop_left, List.modifyHead_cons,
    Node.withChildren, h.kind]

/-- Another tag may take its place, with others behind it. -/
theorem withChildren (h : TagAmong element front tag back) (htag : tag'.kind = .jsxOpeningElement)
    (back' : List Node) :
    TagAmong (element.withChildren (front ++ tag' :: back')) front tag' back' :=
  ⟨h.kind, rfl, htag, h.front⟩

theorem identities (h : TagAmong element front tag back) (id : String) :
    element.identities id = (tag.signature? id).toList ++ (Node.identitiesAll id front ++
      (tag.identities id ++ Node.identitiesAll id back)) := by
  rw [Node.identities_eq, Node.identity?, h.opening?, Option.bind_some, h.children,
    Node.identitiesAll_append, Node.identitiesAll]

theorem orderlyBelow (h : TagAmong element front tag back) (horderly : element.OrderlyBelow)
    (hchildren : ∀ c ∈ children, c.OrderlyBelow) :
    (element.withChildren children).OrderlyBelow := by
  have hmem : tag ∈ element.children := by
    rw [h.children]
    exact List.mem_append_right _ List.mem_cons_self
  exact .intro (Node.orderly_of_text_eq_none (horderly.self.text_of_mem hmem) (.inl h.kind))
    hchildren

end TagAmong

theorem opening?_of_selfClosing (h : element.kind = .jsxSelfClosingElement) :
    element.opening? = some element := by
  rw [Node.opening?, h]

theorem updateOpening_of_selfClosing (h : element.kind = .jsxSelfClosingElement) :
    element.updateOpening change = change element := by
  rw [Node.updateOpening, h]

/-- An element is its own tag, has one among its children, or has none that could be changed. -/
theorem tag_cases (element : Node) :
    element.kind = .jsxSelfClosingElement ∨ (∃ front tag back, TagAmong element front tag back) ∨
      ∀ change, element.updateOpening change = element := by
  cases hkind : element.kind with
  | jsxSelfClosingElement => exact .inl rfl
  | jsxElement =>
    cases hindex : element.children.findIdx? (·.kind == .jsxOpeningElement) with
    | none =>
      refine .inr (.inr fun change => ?_)
      rw [Node.updateOpening, hkind]
      dsimp only
      rw [hindex]
    | some index =>
      obtain ⟨front, tag, back, hchildren, -, htag, hfront⟩ := exists_split_of_findIdx? hindex
      exact .inr (.inl ⟨front, tag, back, hkind, hchildren, beq_iff_eq.mp htag, hfront⟩)
  | _ => exact .inr (.inr fun change => by rw [Node.updateOpening, hkind])

/-! ## Changes of the tag of an element -/

/-- A tag is another one but for children that do not matter. -/
structure Retag (id : String) (tag' tag : Node) : Prop where
  kind : tag'.kind = tag.kind
  field : tag'.field = tag.field
  essential : Node.essential id tag'.children = Node.essential id tag.children
  orderly : tag.kind.isOpening = true → tag.OrderlyBelow → tag'.OrderlyBelow

namespace Retag

variable {tag'' tag' tag : Node} {front back : List Node}

theorem refl (id : String) (tag : Node) : Retag id tag tag := ⟨rfl, rfl, rfl, fun _ h => h⟩

theorem trans (h : Retag id tag'' tag') (h' : Retag id tag' tag) : Retag id tag'' tag where
  kind := h.kind.trans h'.kind
  field := h.field.trans h'.field
  essential := h.essential.trans h'.essential
  orderly hkind horderly := h.orderly (by rwa [h'.kind]) (h'.orderly hkind horderly)

/-- An element that is its own tag stays the same element. -/
theorem alike_selfClosing (h : Retag id tag' tag) (hkind : tag.kind = .jsxSelfClosingElement) :
    Alike id values tag' tag := by
  have hkind' : tag'.kind = .jsxSelfClosingElement := h.kind.trans hkind
  have helement : tag.kind.isElement = true := by rw [hkind]; rfl
  refine ⟨face_of_isElement (by rwa [h.kind]) helement h.field, ?_,
    h.orderly (by rw [hkind]; rfl)⟩
  rw [Node.identities_eq, Node.identities_eq id tag, Node.identity?, Node.identity?,
    opening?_of_selfClosing hkind, opening?_of_selfClosing hkind', Option.bind_some,
    Option.bind_some, Node.signature?_of_essential h.essential,
    Node.identitiesAll_of_essential h.essential]

/-- A tag among the children of an element is no element itself. -/
theorem identities (h : Retag id tag' tag) (hkind : tag.kind = .jsxOpeningElement) :
    tag'.identities id = tag.identities id := by
  have hkind' : tag'.kind = .jsxOpeningElement := h.kind.trans hkind
  rw [Node.identities_of_not_isElement (by rw [hkind']; rfl),
    Node.identities_of_not_isElement (by rw [hkind]; rfl),
    Node.identitiesAll_of_essential h.essential]

/-- An element with its tag among its children stays the same element. -/
theorem alike_among (h : Retag id tag' tag) (hamong : TagAmong element front tag back) :
    Alike id values (element.withChildren (front ++ tag' :: back)) element := by
  have helement : element.kind.isElement = true := by rw [hamong.kind]; rfl
  have hamong' := hamong.withChildren (h.kind.trans hamong.tag) back
  refine ⟨face_of_isElement helement helement rfl, ?_, fun horderly => ?_⟩
  · -- the tag gives the name and the id, and whatever elements are in it come first
    rw [hamong'.identities, hamong.identities, h.identities hamong.tag,
      Node.signature?_of_essential h.essential]
  · have hold : ∀ c ∈ front ++ tag :: back, c.OrderlyBelow := fun c hc =>
      horderly.child (by rwa [hamong.children])
    refine hamong.orderlyBelow horderly fun c hc => ?_
    rcases List.mem_append.mp hc with hc | hc
    · exact hold c (List.mem_append_left _ hc)
    · rcases List.mem_cons.mp hc with rfl | hc
      · exact h.orderly (by rw [hamong.tag]; rfl)
          (hold tag (List.mem_append_right _ List.mem_cons_self))
      · exact hold c (List.mem_append_right _ (List.mem_cons_of_mem _ hc))

end Retag

/-- **An element with such a change of its tag stays the same element.** -/
theorem alike_updateOpening
    (h : ∀ tag, element.opening? = some tag → Retag id (change tag) tag) :
    Alike id values (element.updateOpening change) element := by
  rcases tag_cases element with hkind | ⟨front, tag, back, hamong⟩ | hsame
  · rw [updateOpening_of_selfClosing hkind]
    exact (h element (opening?_of_selfClosing hkind)).alike_selfClosing hkind
  · rw [hamong.updateOpening]
    exact (h tag hamong.opening?).alike_among hamong
  · rw [hsame]
    exact .refl id values element

/-! ## Changes of one attribute -/

variable {name : String} {c tag tag' previous : Node} {index : Nat}

/-- An attribute with a name that holds no element. -/
structure Plainly (id name : String) (c : Node) : Prop where
  kind : c.kind = .jsxAttribute
  name : c.attributeName? = some name
  field : c.field ≠ some "name"
  bare : c.identities id = []

theorem Plainly.isInert (h : Plainly id name c) (hne : name ≠ id) : c.isInert id = true := by
  have hid : c.isAttribute id = false := by
    rw [Node.isAttribute, h.name, h.kind, beq_self_eq_true, Bool.true_and]
    exact beq_false_of_ne fun heq => hne (Option.some.inj heq)
  rw [Node.isInert, h.bare, hid, bne_iff_ne.mpr h.field]
  rfl

/-- In the place of another child an attribute stays as it is. -/
theorem Plainly.moved (h : Plainly id name c) (hfield : previous.field ≠ some "name") :
    Plainly id name (inPlaceOf c previous) := by
  refine ⟨h.kind, h.name, ?_, ?_⟩
  · intro hname
    rcases Option.or_eq_some_iff.mp hname with hprevious | ⟨-, hc⟩
    · exact hfield hprevious
    · exact h.field hc
  · exact (Node.identities_congr (m := inPlaceOf c previous) (n := c) rfl rfl).trans h.bare

/-- No attribute of a tag is held as its name. -/
def HoldsAttributes (tag : Node) : Prop :=
  ∀ c ∈ tag.children, c.kind = .jsxAttribute → c.field ≠ some "name"

theorem holdsAttributes_of_orderly (h : tag.Orderly) (hkind : tag.kind.isOpening = true) :
    HoldsAttributes tag := by
  intro c hc hattribute hfield
  have hname := (h.name hkind c hc hfield).2
  rw [hattribute] at hname
  exact absurd hname (by decide)

/-- A tag is another one with a change of the attribute with a name: it was set, or it went, or it
came. -/
structure Reset (id name : String) (tag' tag : Node) : Prop where
  kind : tag'.kind = tag.kind
  field : tag'.field = tag.field
  text : tag'.text = tag.text
  /-- What is new is such an attribute. -/
  mem : ∀ c ∈ tag'.children, c ∈ tag.children ∨ Plainly id name c ∧ c.OrderlyBelow
  /-- All other children are there, in their order. -/
  filter : ∀ q : Node → Bool, (∀ c, Plainly id name c → q c = false) →
    (∀ c, tag.children.find? (Node.isAttribute name) = some c → q c = false) →
    tag'.children.filter q = tag.children.filter q

theorem Reset.refl (id name : String) (tag : Node) : Reset id name tag tag :=
  ⟨rfl, rfl, rfl, fun _ hc => .inl hc, fun _ _ _ => rfl⟩

/-- The attribute at the index of a name. -/
theorem attributeIndex?_spec (h : tag.attributeIndex? name = some index) :
    ∃ previous, tag.children[index]? = some previous ∧ previous.isAttribute name = true ∧
      tag.children.find? (Node.isAttribute name) = some previous := by
  obtain ⟨front, previous, back, hchildren, rfl, hprevious, hfront⟩ := exists_split_of_findIdx? h
  rw [hchildren]
  refine ⟨previous, ?_, hprevious, find?_append_cons hprevious hfront⟩
  rw [List.getElem?_append_right (Nat.le_refl _), Nat.sub_self]
  rfl

theorem reset_erase (h : tag.attributeIndex? name = some index) :
    Reset id name (tag.withChildren (tag.children.eraseIdx index)) tag := by
  obtain ⟨previous, hprevious, -, hfind⟩ := attributeIndex?_spec h
  refine ⟨rfl, rfl, rfl, fun c hc => .inl (List.mem_of_mem_eraseIdx hc), fun q _ hq => ?_⟩
  exact filter_eraseIdx_of_neg hprevious (hq previous hfind)

theorem reset_set (htag : HoldsAttributes tag) (h : tag.attributeIndex? name = some index)
    (hprevious : tag.children[index]? = some previous) (hc : Plainly id name c)
    (horderly : c.OrderlyBelow) :
    Reset id name (tag.withChildren (tag.children.set index (inPlaceOf c previous))) tag := by
  obtain ⟨found, hfound, hattribute, hfind⟩ := attributeIndex?_spec h
  obtain rfl : found = previous := Option.some.inj (hfound.symm.trans hprevious)
  have hnew : Plainly id name (inPlaceOf c found) :=
    hc.moved (htag found (List.mem_of_getElem? hfound)
      (Node.isAttribute_iff.mp hattribute).1)
  refine ⟨rfl, rfl, rfl, fun d hd => ?_, fun q hq hq' => ?_⟩
  · rcases List.mem_or_eq_of_mem_set hd with hd | rfl
    · exact .inl hd
    · exact .inr ⟨hnew, horderly.congr rfl rfl rfl⟩
  · exact filter_set_of_neg hfound (hq' found hfind) (hq _ hnew)

theorem reset_insert (index : Nat) (hc : Plainly id name c) (horderly : c.OrderlyBelow) :
    Reset id name (tag.withChildren (tag.children.insertIdx index c)) tag := by
  refine ⟨rfl, rfl, rfl, fun d hd => ?_, fun q hq _ => filter_insertIdx_of_neg (hq c hc) index _⟩
  rcases List.eq_or_mem_of_mem_insertIdx hd with rfl | hd
  · exact .inr ⟨hc, horderly⟩
  · exact .inl hd

/-- The grammar is right about a tag with a change of one attribute. -/
theorem Reset.orderlyBelow (h : Reset id name tag' tag) (hkind : tag.kind.isOpening = true)
    (horderly : tag.OrderlyBelow) : tag'.OrderlyBelow := by
  have hkind' : tag'.kind.isOpening = true := by rwa [h.kind]
  have htext : tag'.text = none := h.text.trans (horderly.self.tag hkind)
  refine .intro ?_ fun c hc => (h.mem c hc).elim (fun hc => horderly.child hc) And.right
  refine ⟨⟨?name, ?head, ?before, ?value, ?pair, ?key, ?entry⟩, ?leaf, ?tag⟩
  -- most of what the grammar says is not about tags
  case leaf => cases hk : tag'.kind <;> simp_all [Kind.isOpening, Kind.isVerbatim]
  case tag => exact fun _ => htext
  case name =>
    intro _ c hc hfield
    rcases h.mem c hc with hc | hc
    · exact horderly.self.name hkind c hc hfield
    · exact absurd hfield hc.1.field
  all_goals
    intro hk
    rw [hk] at hkind'
    cases hkind'

/-- **A change of one attribute does not matter**, if it is not the id and held no element. -/
theorem Reset.retag (h : Reset id name tag' tag) (hne : name ≠ id) (htag : HoldsAttributes tag)
    (hbare : ∀ c, tag.children.find? (Node.isAttribute name) = some c → c.identities id = []) :
    Retag id tag' tag := by
  refine ⟨h.kind, h.field, h.filter _ (fun c hc => ?_) (fun c hc => ?_), h.orderlyBelow⟩
  · rw [hc.isInert hne]
    rfl
  · -- the attribute that was there before does not matter either
    obtain ⟨hkind, hname⟩ := Node.isAttribute_iff.mp (List.find?_some hc)
    have hplainly : Plainly id name c :=
      ⟨hkind, hname, htag c (List.mem_of_find?_eq_some hc) hkind, hbare c hc⟩
    rw [hplainly.isInert hne]
    rfl

theorem Reset.holdsAttributes (h : Reset id name tag' tag) (htag : HoldsAttributes tag) :
    HoldsAttributes tag' := by
  intro c hc hkind
  rcases h.mem c hc with hc | hc
  · exact htag c hc hkind
  · exact hc.1.field

/-- The attributes with another name are not changed. -/
theorem Reset.find? (h : Reset id name tag' tag) {other : String} (hne : name ≠ other) :
    tag'.children.find? (Node.isAttribute other) = tag.children.find? (Node.isAttribute other) := by
  have hother : ∀ c : Node, c.attributeName? = some name → c.isAttribute other = false := by
    intro c hc
    rw [Node.isAttribute, hc, beq_false_of_ne (fun heq => hne (Option.some.inj heq)), Bool.and_false]
  rw [← List.head?_filter, ← List.head?_filter, h.filter]
  · exact fun c hc => hother c hc.name
  · exact fun c hc => hother c (Node.isAttribute_iff.mp (List.find?_some hc)).2

/-! ## Attributes that are written -/

theorem identities_leaf (kind : Kind) (text : String) : (Node.leaf kind text).identities id = [] :=
  Node.identities_of_children_eq_nil rfl

theorem orderlyBelow_stringLiteral (value : String) (quote : Char) :
    (Node.stringLiteral value quote).OrderlyBelow := by
  unfold Node.stringLiteral
  split <;> exact Node.orderlyBelow_leaf rfl _

theorem orderlyBelow_markupExpression {inner : Node} (h : inner.OrderlyBelow) :
    (Node.markupExpression inner).OrderlyBelow := by
  refine .intro (Node.orderly_of_text_eq_none rfl (.inr (.inr (.inl rfl)))) fun c hc => ?_
  simp only [Node.markupExpression, Node.branch, List.mem_cons, List.not_mem_nil, or_false] at hc
  rcases hc with rfl | rfl | rfl
  · exact Node.orderlyBelow_leaf rfl _
  · exact h.congr rfl rfl rfl
  · exact Node.orderlyBelow_leaf rfl _

theorem orderlyBelow_attributeValue (text : String) : (Node.attributeValue text).OrderlyBelow := by
  unfold Node.attributeValue
  split
  · exact Node.orderlyBelow_leaf rfl _
  · split
    · exact Node.orderlyBelow_leaf rfl _
    · exact orderlyBelow_markupExpression (orderlyBelow_stringLiteral _ _)

theorem orderlyBelow_markupAttribute (name : String) {value : Option Node}
    (h : ∀ inner, value = some inner → inner.OrderlyBelow) :
    (Node.markupAttribute name value).OrderlyBelow := by
  have hbefore : (Node.markupAttribute name value).beforeEquals = [] := by cases value <;> rfl
  have hbehind : (Node.markupAttribute name value).behindEquals.length ≤ 1 := by
    cases value with
    | none => exact Nat.zero_le _
    | some inner => exact Nat.le_refl _
  refine .intro ?_ fun c hc => ?_
  · refine ⟨⟨?name, ?head, ?before, ?value, ?pair, ?key, ?entry⟩, ?leaf, ?tag⟩
    case head =>
      intro _ c hc
      cases hc
      rfl
    case before => exact fun _ => by rw [hbefore]; rfl
    case value => exact fun _ => Nat.le_trans (List.length_filter_le _ _) hbehind
    all_goals simp [Node.markupAttribute, Node.branch, Node.withLeading, Kind.isVerbatim,
      Kind.isOpening]
  · rcases List.mem_cons.mp hc with rfl | hc
    · exact Node.orderlyBelow_leaf rfl _
    · cases value with
      | none => cases hc
      | some inner =>
        rcases List.mem_cons.mp hc with rfl | hc
        · exact Node.orderlyBelow_leaf rfl _
        · rw [List.mem_singleton.mp hc]
          exact (h inner rfl).congr rfl rfl rfl

theorem identities_markupExpression {inner : Node} (h : inner.identities id = []) :
    (Node.markupExpression inner).identities id = [] := by
  refine (Node.identities_of_not_isElement (n := Node.markupExpression inner) rfl).trans
    (Node.identitiesAll_eq_nil fun c hc => ?_)
  simp only [Node.markupExpression, Node.branch, List.mem_cons, List.not_mem_nil, or_false] at hc
  rcases hc with rfl | rfl | rfl
  · exact identities_leaf _ _
  · exact (Node.identities_withLeading inner "").trans h
  · exact identities_leaf _ _

theorem identities_attributeValue (text : String) :
    (Node.attributeValue text).identities id = [] := by
  unfold Node.attributeValue
  split
  · exact identities_leaf _ _
  · split
    · exact identities_leaf _ _
    · exact identities_markupExpression (identities_leaf _ _)

theorem plainly_markupAttribute (name : String) {value : Option Node}
    (h : ∀ inner, value = some inner → inner.identities id = []) :
    Plainly id name (Node.markupAttribute name value) := by
  refine ⟨rfl, ?_, (fun hfield => nomatch hfield), ?_⟩
  · rw [Node.attributeName?]
    exact congrArg some (by rw [Node.body_eq]; exact String.append_empty)
  · refine (Node.identities_of_not_isElement (n := Node.markupAttribute name value) rfl).trans
      (Node.identitiesAll_eq_nil fun c hc => ?_)
    rcases List.mem_cons.mp hc with rfl | hc
    · exact identities_leaf _ _
    · cases value with
      | none => cases hc
      | some inner =>
        rcases List.mem_cons.mp hc with rfl | hc
        · exact identities_leaf _ _
        · rw [List.mem_singleton.mp hc]
          exact (Node.identities_withLeading inner "").trans (h inner rfl)

/-- **Setting an attribute is such a change.** -/
theorem reset_attributeChange (id : String) (htag : HoldsAttributes tag) (name : String)
    (value : Option AttributeValue) :
    Reset id name ((AttributeChange.of tag name value).apply tag) tag := by
  have hvalue : ∀ node shown, written? value = some (node, shown) → ∀ inner, node = some inner →
      ∃ text, inner = Node.attributeValue text := by
    intro node shown hwritten inner hinner
    unfold written? at hwritten
    split at hwritten <;> cases hwritten
    · cases hinner
    · cases hinner
      exact ⟨_, rfl⟩
  have hwritten : ∀ node shown, written? value = some (node, shown) →
      Plainly id name (Node.markupAttribute name node) := fun node shown hwritten =>
    plainly_markupAttribute name fun inner hinner => by
      obtain ⟨text, rfl⟩ := hvalue node shown hwritten inner hinner
      exact identities_attributeValue text
  have horderly : ∀ node shown, written? value = some (node, shown) →
      (Node.markupAttribute name node).OrderlyBelow := fun node shown hwritten =>
    orderlyBelow_markupAttribute name fun inner hinner => by
      obtain ⟨text, rfl⟩ := hvalue node shown hwritten inner hinner
      exact orderlyBelow_attributeValue text
  unfold AttributeChange.of
  cases hindex : tag.attributeIndex? name with
  | none =>
    cases hnew : written? value with
    | none => exact .refl id name tag
    | some new => exact reset_insert _ (hwritten new.1 new.2 hnew) (horderly new.1 new.2 hnew)
  | some index =>
    obtain ⟨previous, hprevious, -⟩ := attributeIndex?_spec hindex
    dsimp only
    rw [Option.bind_some, hprevious]
    cases hnew : written? value with
    | none => exact reset_erase hindex
    | some new =>
      exact reset_set htag hindex hprevious (hwritten new.1 new.2 hnew) (horderly new.1 new.2 hnew)

end MarkupEdit.Edit
