import MarkupEdit.Proofs.Edit.StyleEffect

/-!
# Attributes that are set are read

Setting an attribute of an element succeeds whenever its name is a name of attributes and not the one
of the stable ids, and the attribute is read from the element then. A text between quotes is written as
it is, but read with its references decoded; one that holds both quotes is written as a literal, which
is read as it was written. An attribute can be there more than once, and only the first one is removed.

* `readText_eq_iff`: **texts that are read as they were written.**
* `contentAfter`: what is read of an attribute that was set; `attributeOf?_setAttribute` says so.
* `attributeOf?_of_editAttribute`: **when an attribute is read as it was set**, and what is read if not.
* `attribute_misread`: a text with a reference, and an attribute that was there twice.
-/

namespace MarkupEdit.Edit

open MarkupEdit.Text MarkupEdit.Tree

variable {config : Config} {tree : SourceTree} {path : Path} {element tag : Node} {name : String}

/-! ## Texts between quotes -/

/-- **A text is read as it was written** if it holds both quotes, or no reference. -/
theorem readText_eq_iff (text : String) :
    readText text = text ↔
      ('"' ∈ text.toList ∧ '\'' ∈ text.toList) ∨ ¬ HoldsReference text.toList := by
  have hcontains : (text.toList.contains '"' && text.toList.contains '\'') = true ↔
      '"' ∈ text.toList ∧ '\'' ∈ text.toList := by
    rw [Bool.and_eq_true, List.contains_iff_mem, List.contains_iff_mem]
  unfold readText
  split
  · next hquotes => exact iff_of_true rfl (.inl (hcontains.mp hquotes))
  next hquotes =>
  rcases decodeReferences_cases text.toList with ⟨hholds, hlt⟩ | ⟨hnone, hsame⟩
  · -- a text with a reference is read as a shorter one
    refine iff_of_false (fun heq => ?_) fun h => h.elim (hquotes ∘ hcontains.mpr) fun hnone => hnone hholds
    rw [← String.toList_inj, String.toList_ofList] at heq
    rw [heq] at hlt
    exact Nat.lt_irrefl _ hlt
  · exact iff_of_true (by rw [hsame, String.ofList_toList]) (.inr hnone)

/-! ## Attributes of an element -/

theorem attributeOf?_of_opening? (hopening : element.opening? = some tag) :
    attributeOf? element name =
      (tag.children.find? (Node.isAttribute name)).map attributeContent := by
  rw [attributeOf?, hopening]
  rfl

theorem attributeContent_markupAttribute_none (name : String) :
    attributeContent (.markupAttribute name none) = .present := rfl

/-- What is read of an attribute that was set. Where one was removed the next one of its name is read. -/
def contentAfter (tag : Node) (name : String) : Option AttributeValue → Option AttributeContent
  | some (.text text) => some (.static (readText text))
  | some (.flag true) => some .present
  | _ => (tag.children.filter (Node.isAttribute name)).tail.head?.map attributeContent

/-- An attribute that was written is found, and holds what its value says. -/
theorem content_of_assigned {tag' : Node} {value : Option Node}
    (h : Assigned name tag (some (.markupAttribute name value)) tag') :
    (tag'.children.find? (Node.isAttribute name)).map attributeContent =
      some (attributeContent (.markupAttribute name value)) := by
  obtain ⟨c, hfind, hchildren⟩ := h.exists_find? (isAttribute_markupAttribute name value)
  rw [hfind, Option.map_some, attributeContent_congr hchildren]

/-- **What is read of an attribute that was set.** -/
theorem attributeOf?_setAttribute (hopening : element.opening? = some tag)
    (value : Option AttributeValue) :
    attributeOf? (setAttribute element name value) name = contentAfter tag name value := by
  have hassigned := assigned_attributeChange tag name value
  have hopening' : (setAttribute element name value).opening? =
      some ((AttributeChange.of tag name value).apply tag) :=
    (opening?_updateOpening hopening hassigned.kind).1
  rw [attributeOf?_of_opening? hopening']
  match value with
  | none | some (.flag false) => rw [hassigned.find?_of_removed]; rfl
  | some (.flag true) =>
    rw [content_of_assigned hassigned, attributeContent_markupAttribute_none, contentAfter]
  | some (.text text) =>
    rw [content_of_assigned hassigned, attributeContent_attributeValue, contentAfter]

/-- A text is read as it was set exactly if it is written as it is read. -/
theorem contentAfter_text_iff (tag : Node) (name text : String) :
    contentAfter tag name (some (.text text)) = some (.static text) ↔
      ('"' ∈ text.toList ∧ '\'' ∈ text.toList) ∨ ¬ HoldsReference text.toList := by
  rw [contentAfter, Option.some.injEq, AttributeContent.static.injEq, readText_eq_iff]

/-- Nothing is read of an attribute that was removed exactly if it was there once at most. -/
theorem contentAfter_none_iff (tag : Node) (name : String) :
    contentAfter tag name none = none ↔
      (tag.children.filter (Node.isAttribute name)).length ≤ 1 := by
  rw [contentAfter, Option.map_eq_none_iff, List.head?_eq_none_iff,
    ← List.length_eq_zero_iff, List.length_tail]
  · omega
  · exact fun _ h => nomatch h
  · exact fun h => nomatch h

/-- Setting an attribute of an element is putting the changed element in its place. -/
theorem editAttribute_eq (helement : elementAt tree path = .ok element)
    (hopening : element.opening? = some tag) (hprotected : name ≠ config.idAttribute)
    (hname : isAttributeName name = true) (value : Option AttributeValue) :
    editAttribute tree path name value config =
      (placed tree path (setAttribute element name value)).map (fun edited =>
        (edited, (AttributeChange.of tag name value).reported (attributePath path name))) := by
  have hallowed : ¬ (name == config.idAttribute) = true := by simpa using hprotected
  have hvalid : ¬ (!isAttributeName name) = true := by rw [hname]; exact Bool.false_ne_true
  rw [editAttribute, if_neg hallowed, if_neg hvalid, helement]
  simp only [bind, Except.bind, hopening]
  rfl

/-- **An attribute is set, and read as it was set** if it is only present, or its value is a text that is
read as it is written; one that was removed is not read if it was there once at most. -/
theorem attributeOf?_of_editAttribute (helement : elementAt tree path = .ok element)
    (hopening : element.opening? = some tag) (hprotected : name ≠ config.idAttribute)
    (hname : isAttributeName name = true) (value : Option AttributeValue) :
    ∃ edited changes element',
      editAttribute tree path name value config = .ok (edited, changes) ∧
      elementAt edited path = .ok element' ∧
      attributeOf? element' name = contentAfter tag name value ∧
      (value = some (.flag true) → attributeOf? element' name = some .present) ∧
      (∀ text, value = some (.text text) →
        (attributeOf? element' name = some (.static text) ↔
          ('"' ∈ text.toList ∧ '\'' ∈ text.toList) ∨ ¬ HoldsReference text.toList)) ∧
      (value = none ∨ value = some (.flag false) →
        (attributeOf? element' name = none ↔
          (tag.children.filter (Node.isAttribute name)).length ≤ 1)) := by
  obtain ⟨edited, hplaced⟩ := exists_placed helement (setAttribute element name value)
  have hkind : (setAttribute element name value).kind = element.kind :=
    (opening?_updateOpening hopening (assigned_attributeChange tag name value).kind).2
  have hread : attributeOf? (setAttribute element name value) name = contentAfter tag name value :=
    attributeOf?_setAttribute hopening value
  refine ⟨edited, (AttributeChange.of tag name value).reported (attributePath path name),
    setAttribute element name value, ?_, elementAt_of_placed hplaced ?_, hread, ?_, ?_, ?_⟩
  · rw [editAttribute_eq helement hopening hprotected hname, hplaced]
    rfl
  · rw [hkind]
    exact (elementAt_eq_ok helement).2
  · rintro rfl
    exact hread
  · rintro text rfl
    rw [hread, contentAfter_text_iff]
  · rintro (rfl | rfl)
    · rw [hread, contentAfter_none_iff]
    · rw [hread, ← contentAfter_none_iff tag name]
      rfl

/-! ## One element with an attribute -/

/-- The program with one element after an attribute of it was set. -/
def attributed (attributes : List Node) (name : String) (value : Option AttributeValue) :
    SourceTree :=
  match editAttribute (bareTree attributes) [0, 0] name value {} with
  | .ok (edited, _) => edited
  | .error _ => bareTree attributes

/-- What is read of an attribute of its element. -/
def attributeIn (name : String) (tree : SourceTree) : Option AttributeContent :=
  (tree.get [0, 0]).bind (attributeOf? · name)

/-- An attribute with a text between quotes. -/
def quoted (name text : String) : Node := .markupAttribute name (some (.attributeValue text))

theorem attributeOf?_of_editAttribute_bare :
    (bareTree [quoted "title" "a"]).toSource = "<p title=\"a\"/>;" ∧
      "title" ≠ Config.idAttribute {} ∧ isAttributeName "title" = true ∧
      ∃ edited changes element',
        editAttribute (bareTree [quoted "title" "a"]) [0, 0] "title" (some (.text "\"a\"; 'b' &lt;"))
          {} = .ok (edited, changes) ∧
        elementAt edited [0, 0] = .ok element' ∧
        attributeOf? element' "title" = some (.static "\"a\"; 'b' &lt;") := by
  have hprotected : "title" ≠ Config.idAttribute {} := by decide
  have hname : isAttributeName "title" = true := by decide +kernel
  have helement : elementAt (bareTree [quoted "title" "a"]) [0, 0] =
      .ok (bareElement [quoted "title" "a"]) := rfl
  obtain ⟨edited, changes, element', hedit, helement', -, -, htext, -⟩ :=
    attributeOf?_of_editAttribute helement rfl hprotected hname (some (.text "\"a\"; 'b' &lt;"))
  exact ⟨by decide +kernel, hprotected, hname, edited, changes, element', hedit, helement',
    (htext _ rfl).mpr (.inl (by decide +kernel))⟩

/-- **Attributes that are read otherwise than they were set.** A text with a reference is read decoded,
and of two attributes with one name the second is left. -/
theorem attribute_misread :
    ((attributed [] "title" (some (.text "a &amp; b"))).toSource = "<p title=\"a &amp; b\"/>;" ∧
      attributeIn "title" (attributed [] "title" (some (.text "a &amp; b"))) =
        some (.static "a & b")) ∧
    ((attributed [quoted "id" "a", quoted "id" "b"] "id" none).toSource = "<p id=\"b\"/>;" ∧
      attributeIn "id" (attributed [quoted "id" "a", quoted "id" "b"] "id" none) =
        some (.static "b")) := by
  refine ⟨⟨?_, ?_⟩, ?_, ?_⟩ <;> decide +kernel

end MarkupEdit.Edit
