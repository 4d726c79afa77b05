import MarkupEdit.Proofs.Edit.StyleTag
import MarkupEdit.Proofs.Text.References
import MarkupEdit.Proofs.Tree.Escapes

/-!
# Attributes are read as they were set

An attribute that is set takes the place of the first one with its name, or comes behind all others;
an attribute that is removed leaves the tag. All other attributes are read as before.

* `Assigned`: what setting and removing an attribute can come to.
* `assigned_attributeChange`, `assigned_withStyle`: **both edits of a tag are of this kind.**
* `Assigned.exists_find?`, `Assigned.find?_of_removed`, `Assigned.find?_of_ne`: what is found afterwards.
* `opening?_updateOpening`: a changed tag is the tag of the changed element.
* `attributeContent_attributeValue`: **the text that a value is read as.**
-/

namespace MarkupEdit.Edit

open MarkupEdit.Text MarkupEdit.Tree

variable {name other : String} {c new tag tag' element : Node} {written : Option Node}

/-! ## Setting an attribute -/

/-- A tag with an attribute of a name set, or removed if there is none to set: in the place of the
first one with the name, or as a new one. -/
inductive Assigned (name : String) (tag : Node) : Option Node → Node → Prop where
  | replaced {front back : List Node} {previous new : Node}
      (hchildren : tag.children = front ++ previous :: back)
      (hprevious : previous.isAttribute name = true)
      (hfront : ∀ c ∈ front, c.isAttribute name = false) :
      Assigned name tag (some new) (tag.withChildren (front ++ inPlaceOf new previous :: back))
  | removed {front back : List Node} {previous : Node}
      (hchildren : tag.children = front ++ previous :: back)
      (hprevious : previous.isAttribute name = true)
      (hfront : ∀ c ∈ front, c.isAttribute name = false) :
      Assigned name tag none (tag.withChildren (front ++ back))
  | added {front back : List Node} {new : Node} (hchildren : tag.children = front ++ back)
      (habsent : ∀ c ∈ tag.children, c.isAttribute name = false) :
      Assigned name tag (some new) (tag.withChildren (front ++ new :: back))
  | kept (habsent : ∀ c ∈ tag.children, c.isAttribute name = false) : Assigned name tag none tag

theorem exists_split_of_attributeIndex? {index : Nat} (h : tag.attributeIndex? name = some index) :
    ∃ front previous back, tag.children = front ++ previous :: back ∧ front.length = index ∧
      previous.isAttribute name = true ∧ (∀ c ∈ front, c.isAttribute name = false) ∧
      tag.children[index]? = some previous := by
  obtain ⟨front, previous, back, hchildren, hlength, hprevious, hfront⟩ := exists_split_of_findIdx? h
  refine ⟨front, previous, back, hchildren, hlength, hprevious, hfront, ?_⟩
  rw [hchildren, ← hlength, List.getElem?_append_right (Nat.le_refl _), Nat.sub_self]
  rfl

theorem absent_of_attributeIndex? (h : tag.attributeIndex? name = none) :
    ∀ c ∈ tag.children, c.isAttribute name = false := List.findIdx?_eq_none_iff.mp h

theorem attributeEnd_le (tag : Node) : tag.attributeEnd ≤ tag.children.length := by
  unfold Node.attributeEnd
  split
  · exact Nat.sub_le _ _
  · exact Nat.le_refl _

/-- Setting an attribute of a name that the tag does not have adds it. -/
theorem assigned_insert (h : tag.attributeIndex? name = none) (new : Node) :
    Assigned name tag (some new)
      (tag.withChildren (tag.children.insertIdx tag.attributeEnd new)) := by
  obtain ⟨front, back, hchildren, -, hinsert⟩ :=
    List.exists_of_modifyTailIdx (List.cons new) (attributeEnd_le tag)
  rw [List.insertIdx, hinsert]
  exact .added hchildren (absent_of_attributeIndex? h)

theorem assigned_erase {index : Nat} (h : tag.attributeIndex? name = some index) :
    Assigned name tag none (tag.withChildren (tag.children.eraseIdx index)) := by
  obtain ⟨front, previous, back, hchildren, hlength, hprevious, hfront, -⟩ :=
    exists_split_of_attributeIndex? h
  rw [hchildren, ← hlength, List.eraseIdx_append_of_length_le (Nat.le_refl _), Nat.sub_self,
    List.eraseIdx_cons_zero]
  exact .removed hchildren hprevious hfront

theorem assigned_set {index : Nat} (h : tag.attributeIndex? name = some index) {previous : Node}
    (hprevious : tag.children[index]? = some previous) (new : Node) :
    Assigned name tag (some new)
      (tag.withChildren (tag.children.set index (inPlaceOf new previous))) := by
  obtain ⟨front, found, back, hchildren, hlength, hfound, hfront, hget⟩ :=
    exists_split_of_attributeIndex? h
  obtain rfl : found = previous := Option.some.inj (hget.symm.trans hprevious)
  rw [hchildren, ← hlength, List.set_append_right _ _ (Nat.le_refl _), Nat.sub_self,
    List.set_cons_zero]
  exact .replaced hchildren hfound hfront

/-- **A change of an attribute sets it or removes it.** -/
theorem assigned_attributeChange (tag : Node) (name : String) (value : Option AttributeValue) :
    Assigned name tag ((written? value).map (fun new => .markupAttribute name new.1))
      ((AttributeChange.of tag name value).apply tag) := by
  unfold AttributeChange.of
  cases hindex : tag.attributeIndex? name with
  | none =>
    cases written? value with
    | none => exact .kept (absent_of_attributeIndex? hindex)
    | some new => exact assigned_insert hindex _
  | some index =>
    obtain ⟨previous, hprevious, -⟩ := attributeIndex?_spec hindex
    dsimp only
    rw [Option.bind_some, hprevious]
    cases written? value with
    | none => exact assigned_erase hindex
    | some new => exact assigned_set hindex hprevious _

/-- **Writing an inline style sets its attribute**, or removes it if there are no entries. -/
theorem assigned_withStyle (entries : List StyleEntry) (tag : Node) :
    Assigned styleAttribute tag (if entries.isEmpty then none else some (styleNode entries))
      (withStyle entries tag) := by
  unfold withStyle
  cases hindex : tag.attributeIndex? styleAttribute with
  | none =>
    cases entries with
    | nil => exact .kept (absent_of_attributeIndex? hindex)
    | cons entry rest => exact assigned_insert hindex _
  | some index =>
    obtain ⟨previous, hprevious, -⟩ := attributeIndex?_spec hindex
    dsimp only
    rw [Option.bind_some, hprevious]
    cases entries with
    | nil => exact assigned_erase hindex
    | cons entry rest => exact assigned_set hindex hprevious _

/-! ## Finding attributes -/

theorem isAttribute_of_ne (hne : name ≠ other) (h : c.isAttribute name = true) :
    c.isAttribute other = false := by
  obtain ⟨-, hname⟩ := Node.isAttribute_iff.mp h
  rw [Node.isAttribute, hname, beq_false_of_ne (fun heq => hne (Option.some.inj heq)),
    Bool.and_false]

theorem isAttribute_markupAttribute (name : String) (value : Option Node) :
    (Node.markupAttribute name value).isAttribute name = true := by
  rw [Node.isAttribute_iff]
  exact ⟨rfl, congrArg some (by rw [Node.body_eq]; exact String.append_empty)⟩

namespace Assigned

theorem kind (h : Assigned name tag written tag') : tag'.kind = tag.kind := by
  cases h <;> rfl

/-- What was set is found, with its children. -/
theorem exists_find? (h : Assigned name tag (some new) tag') (hnew : new.isAttribute name = true) :
    ∃ c, tag'.children.find? (Node.isAttribute name) = some c ∧ c.children = new.children := by
  cases h with
  | @replaced front back previous _ _ _ hfront =>
    exact ⟨inPlaceOf new previous, find?_append_cons hnew hfront, rfl⟩
  | @added front back _ hchildren habsent =>
    refine ⟨new, find?_append_cons hnew fun c hc => habsent c ?_, rfl⟩
    rw [hchildren]
    exact List.mem_append_left _ hc

/-- Behind an attribute that was removed the next one of its name is found. -/
theorem find?_of_removed (h : Assigned name tag none tag') :
    tag'.children.find? (Node.isAttribute name) =
      (tag.children.filter (Node.isAttribute name)).tail.head? := by
  cases h with
  | @removed front back previous hchildren hprevious hfront =>
    have hnone : front.filter (Node.isAttribute name) = [] :=
      List.filter_eq_nil_iff.mpr fun c hc => by rw [hfront c hc]; exact Bool.false_ne_true
    rw [← List.head?_filter, Node.withChildren, hchildren, List.filter_append, List.filter_append,
      List.filter_cons_of_pos hprevious, hnone, List.nil_append, List.nil_append, List.tail_cons]
  | kept habsent =>
    have hnone : tag.children.filter (Node.isAttribute name) = [] :=
      List.filter_eq_nil_iff.mpr fun c hc => by rw [habsent c hc]; exact Bool.false_ne_true
    rw [← List.head?_filter, hnone]
    rfl

/-- What was removed is not found, if it was the only one of its name. -/
theorem find?_eq_none (h : Assigned name tag none tag')
    (honce : (tag.children.filter (Node.isAttribute name)).length ≤ 1) :
    tag'.children.find? (Node.isAttribute name) = none := by
  have htail : (tag.children.filter (Node.isAttribute name)).tail = [] :=
    List.eq_nil_of_length_eq_zero (by rw [List.length_tail]; omega)
  rw [h.find?_of_removed, htail]
  rfl

/-- The attributes with another name stay as they are. -/
theorem filter_of_ne (h : Assigned name tag written tag')
    (hwritten : ∀ new ∈ written, new.isAttribute name = true) (hne : name ≠ other) :
    tag'.children.filter (Node.isAttribute other) = tag.children.filter (Node.isAttribute other) := by
  have hskip : ∀ {c : Node}, c.isAttribute name = true → ¬ c.isAttribute other = true :=
    fun hc => by rw [isAttribute_of_ne hne hc]; exact Bool.false_ne_true
  cases h with
  | @replaced front back previous new hchildren hprevious _ =>
    have hnew : (inPlaceOf new previous).isAttribute name = true := hwritten new rfl
    rw [hchildren, Node.withChildren, List.filter_append, List.filter_append,
      List.filter_cons_of_neg (hskip hnew), List.filter_cons_of_neg (hskip hprevious)]
  | removed hchildren hprevious _ =>
    rw [hchildren, Node.withChildren, List.filter_append, List.filter_append,
      List.filter_cons_of_neg (hskip hprevious)]
  | @added front back new hchildren _ =>
    rw [hchildren, Node.withChildren, List.filter_append, List.filter_append,
      List.filter_cons_of_neg (hskip (hwritten new rfl))]
  | kept _ => rfl

theorem find?_of_ne (h : Assigned name tag written tag')
    (hwritten : ∀ new ∈ written, new.isAttribute name = true) (hne : name ≠ other) :
    tag'.children.find? (Node.isAttribute other) = tag.children.find? (Node.isAttribute other) := by
  rw [← List.head?_filter, ← List.head?_filter, h.filter_of_ne hwritten hne]

end Assigned

/-! ## The tag of the changed element -/

/-- The tag of an element is the element itself, or is among its children. -/
theorem tag_of_opening? (h : element.opening? = some tag) :
    (element.kind = .jsxSelfClosingElement ∧ tag = element) ∨
      ∃ front back, TagAmong element front tag back := by
  unfold Node.opening? at h
  split at h
  · next hkind =>
    cases h
    exact .inl ⟨hkind, rfl⟩
  · next hkind =>
    obtain ⟨htag, front, back, hchildren, hfront⟩ := List.find?_eq_some_iff_append.mp h
    refine .inr ⟨front, back, hkind, hchildren, beq_iff_eq.mp htag, fun c hc => ?_⟩
    simpa using hfront c hc
  · cases h

/-- **A changed tag is the tag of the changed element**, which is an element still. -/
theorem opening?_updateOpening {change : Node → Node} (h : element.opening? = some tag)
    (hkind : (change tag).kind = tag.kind) :
    (element.updateOpening change).opening? = some (change tag) ∧
      (element.updateOpening change).kind = element.kind := by
  rcases tag_of_opening? h with ⟨hself, rfl⟩ | ⟨front, back, hamong⟩
  · rw [updateOpening_of_selfClosing hself]
    exact ⟨opening?_of_selfClosing (hkind.trans hself), hkind⟩
  · rw [hamong.updateOpening]
    exact ⟨(hamong.withChildren (hkind.trans hamong.tag) back).opening?, rfl⟩

/-! ## What a value is read as -/

/-- What an attribute holds is told by its children. -/
theorem attributeContent_congr {m n : Node} (h : m.children = n.children) :
    attributeContent m = attributeContent n := by
  rw [attributeContent, attributeContent, Node.attributeValueNode?, Node.attributeValueNode?, h]

theorem attributeValueNode?_markupAttribute (name : String) (inner : Node) :
    (Node.markupAttribute name (some inner)).attributeValueNode? = some (inner.withLeading "") := rfl

/-- The text that a value is read as. A value with both quotes is written as a literal; references are
decoded in any other. -/
def readText (value : String) : String :=
  if value.toList.contains '"' && value.toList.contains '\'' then value
  else String.ofList (decodeReferences value.toList)

theorem withoutEnds_append (c : Char) (s : List Char) : withoutEnds (c :: (s ++ [c])) = s := by
  rw [withoutEnds, List.drop_one, List.tail_cons, List.dropLast_concat]

theorem namedChildren_markupExpression {inner : Node} (h : inner.isNamed = true) :
    (Node.markupExpression inner).namedChildren = [inner.withLeading ""] := by
  have hinner : (inner.withLeading "").isNamed = true := h
  rw [Node.namedChildren, Node.markupExpression, Node.branch, List.filter_cons_of_neg (by decide),
    List.filter_cons_of_pos hinner, List.filter_cons_of_neg (by decide), List.filter_nil]

theorem bracedText?_markupExpression {inner : Node} (h : inner.isNamed = true) :
    bracedText? (Node.markupExpression inner) = inner.staticValue? := by
  rw [bracedText?, namedChildren_markupExpression h]
  rfl

theorem attributeContent_of_string {value : Node} (h : c.attributeValueNode? = some value)
    (hkind : value.kind = .string) :
    attributeContent c =
      .static (String.ofList (decodeReferences (withoutEnds (value.text.getD "").toList))) := by
  rw [attributeContent, h]
  dsimp only
  rw [hkind]

theorem attributeContent_of_expression {value : Node} (h : c.attributeValueNode? = some value)
    (hkind : value.kind = .jsxExpression) :
    attributeContent c = ((bracedText? value).map .static).getD (.evaluated value.body) := by
  rw [attributeContent, h]
  dsimp only
  rw [hkind]
  cases bracedText? value <;> rfl

/-- A value is written between quotes that are not in it, or as a literal. -/
theorem attributeValue_cases (value : String) :
    (∃ quote, Node.attributeValue value =
        .leaf .string (String.ofList (quote :: (value.toList ++ [quote]))) ∧
      readText value = String.ofList (decodeReferences value.toList)) ∨
    (Node.attributeValue value = .markupExpression (.stringLiteral value '"') ∧
      readText value = value) := by
  have hquoted : ∀ quote : Char, String.singleton quote ++ value ++ String.singleton quote =
      String.ofList (quote :: (value.toList ++ [quote])) := fun quote => by
    rw [← String.toList_inj, String.toList_append, String.toList_append, String.toList_ofList,
      String.toList_singleton]
    rfl
  unfold Node.attributeValue readText
  cases hdouble : value.toList.contains '"' with
  | false => exact .inl ⟨'"', by rw [← hquoted]; rfl, rfl⟩
  | true =>
    cases hsingle : value.toList.contains '\'' with
    | false => exact .inl ⟨'\'', by rw [← hquoted]; rfl, rfl⟩
    | true => exact .inr ⟨rfl, rfl⟩

/-- **The text that a value is read as.** -/
theorem attributeContent_attributeValue (name value : String) :
    attributeContent (.markupAttribute name (some (.attributeValue value))) =
      .static (readText value) := by
  have hnode := attributeValueNode?_markupAttribute name (.attributeValue value)
  rcases attributeValue_cases value with ⟨quote, hvalue, hread⟩ | ⟨hvalue, hread⟩
  · rw [hvalue] at hnode ⊢
    rw [attributeContent_of_string hnode rfl, hread, Node.withLeading, Node.leaf]
    dsimp only [Option.getD_some]
    rw [String.toList_ofList, withoutEnds_append]
  · rw [hvalue] at hnode ⊢
    have htext : bracedText? ((Node.markupExpression (.stringLiteral value '"')).withLeading "") =
        some value :=
      (bracedText?_markupExpression rfl).trans (staticValue?_stringLiteral (.inl rfl) value)
    rw [attributeContent_of_expression hnode rfl, htext, hread]
    rfl

end MarkupEdit.Edit
