import MarkupEdit.Proofs.Edit.Locality
import MarkupEdit.Proofs.Edit.TagEdit

/-!
# Styles that are replaced

Classes and the inline style are replaced only if they can be read, and what can be read holds no
elements.

* `identities_of_content`: an attribute with a text, or with no value, holds no elements.
* `currentClasses_spec`, `identities_of_currentStyle`: **what is read of classes and styles.**
* `reset_withStyle`: writing an inline style is a change of one attribute.
* `exists_updateOpening_of_editStyle`: **a change of the classes and of the inline style is a change
  of the tag that does not matter**, if the second finds what was read, or nothing with elements.
-/

namespace MarkupEdit.Edit

open MarkupEdit.Text MarkupEdit.Tree

variable {id name : String} {n c value object pair tag tag' : Node} {config : Config}

/-! ## What can be read -/

/-- An attribute holds no element if its value is there and holds none. -/
theorem identities_of_valueNode (horderly : n.OrderlyBelow) (hkind : n.kind = .jsxAttribute)
    (hvalue : n.attributeValueNode? = some value) (hnamed : value.isNamed = true)
    (hbare : value.identities id = []) : n.identities id = [] := by
  -- there is one value only, so what was read is all there is
  refine Node.identities_of_attribute horderly hkind fun c hc hcnamed => ?_
  have hmem : value ∈ n.behindEquals := List.mem_of_head? hvalue
  have honly := horderly.self.value hkind
  obtain rfl : c = value := Option.some.inj ((find?_of_length_le honly hc hcnamed).symm.trans
    (find?_of_length_le honly hmem hnamed))
  exact hbare

theorem mem_children_of_value (h : n.attributeValueNode? = some value) : value ∈ n.children :=
  (List.dropWhile_sublist _).subset (List.mem_of_mem_drop (List.mem_of_head? h))

/-- A literal is all there is between the braces. -/
theorem identities_of_bracedText? (horderly : value.OrderlyBelow)
    (hkind : value.kind = .jsxExpression) {text : String} (h : bracedText? value = some text) : value.identities id = [] := by
  refine Node.identities_of_namedChildren horderly
    (Node.identity?_of_not_isElement (by rw [hkind]; rfl)) fun c hc => ?_
  unfold bracedText? at h
  split at h
  · next literal hliteral =>
    have hmem := (List.mem_filter.mp hc).1
    rw [hliteral, List.mem_singleton] at hc
    subst hc
    exact Node.identities_of_staticValue? (horderly.child hmem).self h
  · cases h

/-- **An attribute whose value is known without evaluation holds no elements.** -/
theorem identities_of_content (horderly : n.OrderlyBelow) (hkind : n.kind = .jsxAttribute)
    (h : ∀ source, attributeContent n ≠ .evaluated source) : n.identities id = [] := by
  cases hvalue : n.attributeValueNode? with
  | none =>
    refine Node.identities_of_attribute horderly hkind fun c hc => ?_
    have hnil : n.behindEquals = [] := List.head?_eq_none_iff.mp hvalue
    rw [hnil] at hc
    cases hc
  | some value =>
    have hvalues := horderly.child (mem_children_of_value hvalue)
    have hcontent := h value.body
    rw [attributeContent, hvalue] at hcontent
    dsimp only at hcontent
    split at hcontent
    · next hstring =>
      refine identities_of_valueNode horderly hkind hvalue (by rw [Node.isNamed, hstring]; rfl) ?_
      exact Node.identities_of_children_eq_nil
        (hvalues.self.leaf (.inr (.inl (by rw [hstring]; rfl))))
    · next hbraces =>
      refine identities_of_valueNode horderly hkind hvalue (by rw [Node.isNamed, hbraces]; rfl) ?_
      split at hcontent
      · next text htext => exact identities_of_bracedText? hvalues hbraces htext
      · exact absurd rfl hcontent
    · exact absurd rfl hcontent

/-! ## Classes -/

/-- A usable configuration names an attribute for new classes. -/
theorem primaryClassAttribute_mem (h : config.validate = .ok config) :
    config.primaryClassAttribute ∈ config.classAttributes := by
  have hsome : config.classAttributes.all allBlank = false := by
    unfold Config.validate at h
    split at h
    · cases h
    split at h
    · cases h
    split at h
    · cases h
    split at h
    · cases h
    · next hblank => exact Bool.not_eq_true _ |>.mp hblank
  rw [Config.primaryClassAttribute]
  cases hfind : config.classAttributes.find? (fun name => !allBlank name) with
  | none =>
    rw [List.find?_eq_none] at hfind
    rw [List.all_eq_true.mpr fun name hname => by simpa using hfind name hname] at hsome
    cases hsome
  | some name => exact List.mem_of_find?_eq_some hfind

/-- **The class attribute is one of those in the configuration, and holds no elements** if its classes
can be read. -/
theorem currentClasses_spec (id : String) (hvalid : config.validate = .ok config)
    (horderly : tag.OrderlyBelow) {current : CurrentClasses} (h : currentClasses tag config = .ok current) :
    current.name ∈ config.classAttributes ∧
      ∀ c, tag.children.find? (Node.isAttribute current.name) = some c → c.identities id = [] := by
  unfold currentClasses at h
  cases hfirst : config.classAttributes.findSome? (fun name =>
      (tag.children.find? (Node.isAttribute name)).map (fun child =>
        (name, attributeContent child))) with
  | none =>
    rw [hfirst] at h
    cases h
    have hmem := primaryClassAttribute_mem hvalid
    refine ⟨hmem, fun c hc => ?_⟩
    have hnone := List.findSome?_eq_none_iff.mp hfirst _ hmem
    rw [hc] at hnone
    cases hnone
  | some first =>
    obtain ⟨name, hmem, hname⟩ := List.exists_of_findSome?_eq_some hfirst
    obtain ⟨child, hchild, rfl⟩ := Option.map_eq_some_iff.mp hname
    rw [hfirst] at h
    -- the content that was read is that of the first attribute with the name
    have hcontent : current.name = name ∧ ∀ source, attributeContent child ≠ .evaluated source := by
      cases hcase : attributeContent child <;> rw [hcase] at h <;> cases h
      · exact ⟨rfl, fun _ heq => nomatch heq⟩
      · exact ⟨rfl, fun _ heq => nomatch heq⟩
    obtain ⟨hname, hcontent⟩ := hcontent
    rw [hname]
    refine ⟨hmem, fun c hc => ?_⟩
    obtain rfl : child = c := Option.some.inj (hchild.symm.trans hc)
    exact identities_of_content (horderly.child (List.mem_of_find?_eq_some hchild))
      (Node.isAttribute_iff.mp (List.find?_some hchild)).1 hcontent

/-! ## Inline styles -/

theorem exists_ok_of_mapM {ε α β : Type} {f : α → Except ε β} {l : List α} {r : List β}
    (h : l.mapM f = .ok r) : ∀ a ∈ l, ∃ b, f a = .ok b := by
  induction l generalizing r with
  | nil => exact fun _ ha => nomatch ha
  | cons a l ih =>
    rw [List.mapM_cons] at h
    obtain ⟨b, hb, h⟩ := ok_of_bind h
    obtain ⟨rest, hrest, -⟩ := ok_of_bind h
    intro d hd
    rcases List.mem_cons.mp hd with rfl | hd
    · exact ⟨b, hb⟩
    · exact ih hrest d hd

/-- A pair that can be read is a name and a literal or a number. -/
theorem identities_of_pairEntry (horderly : pair.OrderlyBelow) {entry : StyleEntry}
    (h : pairEntry pair = .ok entry) : pair.identities id = [] := by
  unfold pairEntry at h
  split at h
  · next key value hkey hvalue =>
    unfold keyText? at hkey
    split at hkey
    · cases hkey
    next hkind =>
    rw [bne_iff_ne, ne_eq, Classical.not_not] at hkind
    obtain ⟨keyNode, hkeyNode, hkey⟩ := Option.bind_eq_some_iff.mp hkey
    have hlines := horderly.self
    refine Node.identities_of_namedChildren horderly
      (Node.identity?_of_not_isElement (by rw [hkind]; rfl)) fun c hc => ?_
    have hmem := (List.mem_filter.mp hc).1
    have hc' := (horderly.child hmem).self
    rcases hlines.pair hkind c hc with hfield | hfield
    · -- the key has a text, as a word or as a literal
      have hfind := find?_of_length_le (hlines.key hkind) hmem (beq_iff_eq.mpr hfield)
      obtain rfl : keyNode = c := Option.some.inj (hkeyNode.symm.trans hfind)
      split at hkey
      · exact Node.identities_of_children_eq_nil
          (hc'.leaf (.inr (.inr (.inr (by rw [hkey]; rfl)))))
      · exact Node.identities_of_staticValue? hc' hkey
    · have hfind := find?_of_length_le (hlines.entry hkind) hmem (beq_iff_eq.mpr hfield)
      obtain rfl : value = c := Option.some.inj (hvalue.symm.trans hfind)
      split at h
      · next text htext => exact Node.identities_of_staticValue? hc' htext
      · split at h
        · next hnumber =>
          exact Node.identities_of_children_eq_nil
            (hc'.leaf (.inr (.inr (.inl (beq_iff_eq.mp hnumber)))))
        · cases h
  · cases h

/-- What has nothing but objects in it is no element: it has neither a name nor a tag. -/
theorem identity?_of_objects (id : String) (horderly : value.Orderly)
    (h : ∀ c ∈ value.namedChildren, c.kind = .object) : value.identity? id = none := by
  have hobject : ∀ c ∈ value.children, c.isNamed = true → c.kind = .object := fun c hc hnamed =>
    h c (List.mem_filter.mpr ⟨hc, hnamed⟩)
  rw [Node.identity?, Node.opening?]
  split
  · next hself =>
    rw [Option.bind_some, Node.signature?, Node.childByField?]
    cases hname : value.children.find? (·.field == some "name") with
    | none => rfl
    | some c =>
      have hfield := List.find?_some hname
      have hmem := List.mem_of_find?_eq_some hname
      have hkinds := (horderly.name (by rw [hself]; rfl) c hmem (beq_iff_eq.mp hfield)).2
      have hnamed : c.isNamed = true := by
        simp only [List.mem_cons, List.not_mem_nil, or_false] at hkinds
        rcases hkinds with hk | hk | hk <;> rw [Node.isNamed, hk] <;> rfl
      rw [hobject c hmem hnamed] at hkinds
      exact absurd hkinds (by decide)
  · rw [Node.childOfKind?]
    cases htag : value.children.find? (·.kind == .jsxOpeningElement) with
    | none => rfl
    | some c =>
      have hfound := List.find?_some htag
      have hkind : c.kind = .jsxOpeningElement := beq_iff_eq.mp hfound
      have hnamed : c.isNamed = true := by rw [Node.isNamed, hkind]; rfl
      rw [hobject c (List.mem_of_find?_eq_some htag) hnamed] at hkind
      cases hkind
  · rfl

/-- An object between braces is all there is between them. -/
theorem bracedObject?_eq_some (h : bracedObject? value = some object) :
    value.namedChildren = [object] ∧ object.kind = .object := by
  unfold bracedObject? at h
  split at h
  · next only hchildren =>
    split at h
    · next hkind =>
      cases h
      exact ⟨hchildren, beq_iff_eq.mp hkind⟩
    · cases h
  · cases h

/-- **The attribute of the inline style holds no elements** if the style can be read. -/
theorem identities_of_currentStyle (horderly : tag.OrderlyBelow) {entries : List StyleEntry}
    (h : currentStyle tag = .ok entries)
    (hstyle : tag.children.find? (Node.isAttribute styleAttribute) = some c) :
    c.identities id = [] := by
  have hkind : c.kind = .jsxAttribute := (Node.isAttribute_iff.mp (List.find?_some hstyle)).1
  have hc := horderly.child (List.mem_of_find?_eq_some hstyle)
  rw [currentStyle, hstyle] at h
  dsimp only at h
  cases hcontent : attributeContent c with
  | present => exact identities_of_content hc hkind fun _ heq => nomatch hcontent ▸ heq
  | static text => exact identities_of_content hc hkind fun _ heq => nomatch hcontent ▸ heq
  | evaluated source =>
    rw [hcontent] at h
    dsimp only at h
    split at h
    · next object hobject =>
      obtain ⟨value, hvalue, hobject⟩ := Option.bind_eq_some_iff.mp hobject
      have hvalues := hc.child (mem_children_of_value hvalue)
      obtain ⟨hchildren, hkindObject⟩ := bracedObject?_eq_some hobject
      have hidentity : value.identity? id = none := by
        refine identity?_of_objects id hvalues.self fun d hd => ?_
        rw [hchildren, List.mem_singleton] at hd
        rw [hd, hkindObject]
      have hmem : object ∈ value.namedChildren := by
        rw [hchildren]
        exact List.mem_singleton_self object
      have hobjects := hvalues.child (List.mem_filter.mp hmem).1
      have hnamed : value.isNamed = true := by
        by_cases hnamed : value.isNamed = true
        · exact hnamed
        · have hnil := Node.children_of_not_isNamed hvalues.self hnamed
          rw [Node.namedChildren, hnil] at hchildren
          cases hchildren
      -- from the attribute to the braces, to the object, and to its pairs
      refine identities_of_valueNode hc hkind hvalue hnamed ?_
      refine Node.identities_of_namedChildren hvalues hidentity fun d hd => ?_
      rw [hchildren, List.mem_singleton] at hd
      subst hd
      refine Node.identities_of_namedChildren hobjects
        (Node.identity?_of_not_isElement (by rw [hkindObject]; rfl)) fun pair hpair => ?_
      obtain ⟨entry, hentry⟩ := exists_ok_of_mapM h pair hpair
      exact identities_of_pairEntry (hobjects.child (List.mem_filter.mp hpair).1) hentry
    · cases h

/-! ## What is written -/

theorem identities_objectEntry {key : String} (h : value.identities id = []) :
    (Node.objectEntry key value).identities id = [] := by
  refine (Node.identities_of_not_isElement (n := Node.objectEntry key value) rfl).trans
    (Node.identitiesAll_eq_nil fun c hc => ?_)
  rcases List.mem_cons.mp hc with rfl | hc
  · split <;> exact Node.identities_of_children_eq_nil rfl
  · rcases List.mem_cons.mp hc with rfl | hc
    · exact identities_leaf _ _
    · rw [List.mem_singleton.mp hc]
      exact (Node.identities_congr (m := (value.withLeading " ").withField "value") (n := value)
        rfl rfl).trans h

theorem orderlyBelow_objectEntry {key : String} (h : value.OrderlyBelow) :
    (Node.objectEntry key value).OrderlyBelow := by
  refine .intro ?_ fun c hc => ?_
  · refine ⟨⟨?name, ?head, ?before, ?value, ?pair, ?key, ?entry⟩, ?leaf, ?tag⟩
    case pair =>
      intro _ c hc
      obtain ⟨hc, hnamed⟩ := List.mem_filter.mp hc
      rcases List.mem_cons.mp hc with rfl | hc
      · exact .inl rfl
      · rcases List.mem_cons.mp hc with rfl | hc
        · cases hnamed
        · rw [List.mem_singleton.mp hc]
          exact .inr rfl
    all_goals simp [Node.objectEntry, Node.branch, Node.withLeading, Node.withField, Node.token,
      Node.leaf, Kind.isVerbatim, Kind.isOpening]
  · rcases List.mem_cons.mp hc with rfl | hc
    · split
      · exact (Node.orderlyBelow_leaf rfl key).congr rfl rfl rfl
      · exact (orderlyBelow_stringLiteral key '"').congr rfl rfl rfl
    · rcases List.mem_cons.mp hc with rfl | hc
      · exact Node.orderlyBelow_leaf rfl _
      · rw [List.mem_singleton.mp hc]
        exact h.congr rfl rfl rfl

/-- What is in an object literal: marks, and an entry for each key. -/
theorem objectLiteral_cases {entries : List (String × Node)} {p : Node → Prop}
    (hmark : ∀ text leading, p ((Node.token text).withLeading leading))
    (h : ∀ entry ∈ entries, p (Node.objectEntry entry.1 entry.2)) :
    ∀ c ∈ (Node.objectLiteral entries).children, p c := by
  have hentries : ∀ c ∈ Node.objectEntries entries, p c := by
    induction entries with
    | nil => exact fun _ hc => nomatch hc
    | cons entry rest ih =>
      have hfirst : p (Node.objectEntry entry.1 entry.2) := h entry List.mem_cons_self
      intro c hc
      cases rest with
      | nil =>
        rw [List.mem_singleton.mp hc]
        exact hfirst
      | cons next rest =>
        rcases List.mem_cons.mp hc with rfl | hc
        · exact hfirst
        · rcases List.mem_cons.mp hc with rfl | hc
          · exact hmark "," ""
          · exact ih (fun e he => h e (List.mem_cons_of_mem _ he)) c hc
  intro c hc
  rcases List.mem_cons.mp hc with rfl | hc
  · exact hmark "\x7b" ""
  · rcases List.mem_append.mp hc with hc | hc
    · exact hentries c hc
    · rw [List.mem_singleton.mp hc]
      split
      · exact hmark "\x7d" ""
      · exact hmark "\x7d" " "

theorem plainly_styleNode (id : String) (entries : List StyleEntry) :
    Plainly id styleAttribute (styleNode entries) := by
  refine plainly_markupAttribute styleAttribute fun inner hinner => ?_
  cases hinner
  refine identities_markupExpression ((Node.identities_of_not_isElement rfl).trans
    (Node.identitiesAll_eq_nil (objectLiteral_cases (fun text leading => ?_) fun entry hentry => ?_)))
  · exact Node.identities_of_children_eq_nil rfl
  · obtain ⟨⟨property, written⟩, -, rfl⟩ := List.mem_map.mp hentry
    exact identities_objectEntry (by cases written <;> exact identities_leaf _ _)

theorem orderlyBelow_styleNode (entries : List StyleEntry) : (styleNode entries).OrderlyBelow := by
  refine orderlyBelow_markupAttribute styleAttribute fun inner hinner => ?_
  cases hinner
  refine orderlyBelow_markupExpression (.intro
    (Node.orderly_of_text_eq_none rfl (.inr (.inr (.inr rfl))))
    (objectLiteral_cases (fun text leading => ?_) fun entry hentry => ?_))
  · exact Node.orderlyBelow_of_children_eq_nil rfl rfl
  · obtain ⟨⟨property, written⟩, -, rfl⟩ := List.mem_map.mp hentry
    refine orderlyBelow_objectEntry ?_
    cases written with
    | text value => exact orderlyBelow_stringLiteral value '"'
    | number source => exact Node.orderlyBelow_leaf rfl source

/-- **Writing an inline style is a change of one attribute.** -/
theorem reset_withStyle (id : String) (htag : HoldsAttributes tag) (entries : List StyleEntry) :
    Reset id styleAttribute (withStyle entries tag) tag := by
  unfold withStyle
  cases hindex : tag.attributeIndex? styleAttribute with
  | none =>
    cases entries with
    | nil => exact .refl id styleAttribute tag
    | cons entry rest => exact reset_insert _ (plainly_styleNode id _) (orderlyBelow_styleNode _)
  | some index =>
    obtain ⟨previous, hprevious, -⟩ := attributeIndex?_spec hindex
    dsimp only
    rw [Option.bind_some, hprevious]
    cases entries with
    | nil => exact reset_erase hindex
    | cons entry rest =>
      exact reset_set htag hindex hprevious (plainly_styleNode id _) (orderlyBelow_styleNode _)

/-! ## Both changes in a row -/

variable {element : Node}

theorem updateOpening_id (element : Node) : element.updateOpening (fun tag => tag) = element := by
  rcases tag_cases element with hkind | ⟨front, tag, back, hamong⟩ | hsame
  · exact updateOpening_of_selfClosing hkind
  · rw [hamong.updateOpening, ← hamong.children, Node.withChildren_self]
  · exact hsame _

/-- Of two changes of a tag the second finds what the first one made. -/
theorem updateOpening_updateOpening {f g : Node → Node}
    (hf : ∀ tag, element.opening? = some tag → (f tag).kind = tag.kind) :
    (element.updateOpening f).updateOpening g = element.updateOpening (fun tag => g (f tag)) := by
  rcases tag_cases element with hkind | ⟨front, tag, back, hamong⟩ | hsame
  · have hkind' := (hf element (opening?_of_selfClosing hkind)).trans hkind
    rw [updateOpening_of_selfClosing hkind, updateOpening_of_selfClosing hkind',
      updateOpening_of_selfClosing hkind]
  · have hamong' := hamong.withChildren ((hf tag hamong.opening?).trans hamong.tag) back
    rw [hamong.updateOpening, hamong'.updateOpening, hamong.updateOpening]
    rfl
  · rw [hsame, hsame, hsame]

/-! ## Changes of a style -/

variable {tree edited : SourceTree} {path : Path} {changes : List Change}

/-- What was put at a path is there. -/
theorem get_of_placed {node : Node} (h : placed tree path node = .ok edited) :
    edited.get path = some node := by
  obtain ⟨root, hroot, rfl⟩ := placed_eq_ok h
  obtain ⟨-, new, -, hnew, hget, -⟩ := Node.update?_spec hroot
  cases hnew
  exact hget

theorem isOpening_of_opening? (h : element.opening? = some tag) : tag.kind.isOpening = true := by
  unfold Node.opening? at h
  split at h
  · next hkind =>
    cases h
    rw [hkind]
    rfl
  · have hfound := List.find?_some h
    rw [beq_iff_eq] at hfound
    rw [hfound]
    rfl
  · cases h

theorem orderlyBelow_of_opening? (horderly : element.OrderlyBelow)
    (h : element.opening? = some tag) : tag.OrderlyBelow := by
  unfold Node.opening? at h
  split at h
  · cases h
    exact horderly
  · exact horderly.child (List.mem_of_find?_eq_some h)
  · cases h

/-- No classes are written if none are touched or all are there; else they are written into the attribute
that they were read from. -/
theorem classEdit?_cases {classEdit : Option CurrentClasses} {change : StyleChange}
    {utility : List String} (h : classEdit? tag change utility config = .ok classEdit) :
    (touchesClasses change utility = false ∧ classEdit = none) ∨
      ∃ current, currentClasses tag config = .ok current ∧
        ((changedClasses current.value change utility = current.value ∧ classEdit = none) ∨
          classEdit = some ⟨current.name, changedClasses current.value change utility⟩) := by
  unfold classEdit? at h
  split at h
  · obtain ⟨current, hcurrent, h⟩ := ok_of_bind h
    refine .inr ⟨current, hcurrent, ?_⟩
    dsimp only at h
    split at h
    · next hsame =>
      cases h
      exact .inl ⟨beq_iff_eq.mp hsame, rfl⟩
    · cases h
      exact .inr rfl
  · next htouches =>
    cases h
    exact .inl ⟨Bool.eq_false_iff.mpr htouches, rfl⟩

/-- Setting the classes of an element is a change of its tag. -/
theorem exists_updateOpening_of_editClasses (horderly : element.OrderlyBelow)
    (helement : elementAt tree path = .ok element) (hopening : element.opening? = some tag)
    (hvalid : config.validate = .ok config) {classEdit : Option CurrentClasses}
    {change : StyleChange} {utility : List String}
    (hplan : classEdit? tag change utility config = .ok classEdit)
    (h : editClasses tree path classEdit config = .ok (edited, changes)) :
    ∃ update name, placed tree path (element.updateOpening update) = .ok edited ∧
      name ∈ config.classAttributes ∧ Reset config.idAttribute name (update tag) tag ∧
      Retag config.idAttribute (update tag) tag := by
  obtain ⟨hget, hkind⟩ := elementAt_eq_ok helement
  have htag := holdsAttributes_of_orderly (orderlyBelow_of_opening? horderly hopening).self
    (isOpening_of_opening? hopening)
  have hunchanged : classEdit = none → ∃ update name,
      placed tree path (element.updateOpening update) = .ok edited ∧
        name ∈ config.classAttributes ∧ Reset config.idAttribute name (update tag) tag ∧
        Retag config.idAttribute (update tag) tag := by
    rintro rfl
    cases h
    refine ⟨fun tag => tag, config.primaryClassAttribute, ?_, primaryClassAttribute_mem hvalid,
      .refl _ _ tag, .refl _ tag⟩
    rw [updateOpening_id]
    exact placed_self hget
  obtain ⟨-, hnone⟩ | ⟨current, hcurrent, ⟨-, hnone⟩ | rfl⟩ := classEdit?_cases hplan
  · exact hunchanged hnone
  · exact hunchanged hnone
  · -- the attribute that is set is the one that was read
    generalize changedClasses current.value change utility = value at h
    obtain ⟨hmem, hbare⟩ := currentClasses_spec config.idAttribute hvalid
      (orderlyBelow_of_opening? horderly hopening) hcurrent
    have hne : current.name ≠ config.idAttribute := by
      intro heq
      rw [editClasses, editAttribute, if_pos (beq_iff_eq.mpr heq)] at h
      cases h
    obtain ⟨found, hfound, hplaced⟩ := editAttribute_eq_ok h
    rw [helement, Except.ok.injEq] at hfound
    subst hfound
    have hreset := reset_attributeChange config.idAttribute htag current.name
      (if value == "" then none else some (.text value))
    exact ⟨_, current.name, hplaced, hmem, hreset, hreset.retag hne htag hbare⟩

/-- **Writing the inline style does not matter** in a tag whose classes were set, if what it replaces
was read, or if no attribute of its name holds elements. -/
theorem retag_withStyle {id : String} (hid : id ≠ styleAttribute) (horderly : tag.OrderlyBelow)
    (hkind : tag.kind.isOpening = true) {name : String} (hclasses : Reset id name tag' tag)
    (hname : name = styleAttribute → ∀ c ∈ tag.children, c.isAttribute styleAttribute = true →
      c.identities id = [])
    {before : List StyleEntry} (hbefore : currentStyle tag = .ok before) (after : List StyleEntry) :
    Retag id (withStyle after tag') tag' := by
  have htag := holdsAttributes_of_orderly horderly.self hkind
  refine (reset_withStyle id (hclasses.holdsAttributes htag) after).retag hid.symm
    (hclasses.holdsAttributes htag) fun c hc => ?_
  by_cases hsame : name = styleAttribute
  · rcases hclasses.mem c (List.mem_of_find?_eq_some hc) with hmem | hplainly
    · exact hname hsame c hmem (List.find?_some hc)
    · exact hplainly.1.bare
  · -- the style that is replaced is the one that was read
    rw [hclasses.find? hsame] at hc
    exact identities_of_currentStyle horderly hbefore hc

/-- **A change of a style is a change of the tag that does not matter.** -/
theorem exists_updateOpening_of_editStyle (horderly : element.OrderlyBelow)
    (hget : tree.get path = some element) (hvalid : config.validate = .ok config)
    (hid : config.idAttribute ≠ styleAttribute)
    (hstyle : styleAttribute ∈ config.classAttributes → ∀ tag, element.opening? = some tag →
      ∀ c ∈ tag.children, c.isAttribute styleAttribute = true →
        c.identities config.idAttribute = [])
    {change : StyleChange} (h : editStyle tree path change config = .ok (edited, changes)) :
    ∃ update, placed tree path (element.updateOpening update) = .ok edited ∧
      ∀ tag, element.opening? = some tag → Retag config.idAttribute (update tag) tag := by
  obtain ⟨found, hfound, h⟩ := ok_of_bind h
  obtain ⟨hget', hkind⟩ := elementAt_eq_ok hfound
  obtain rfl : element = found := Option.some.inj (hget.symm.trans hget')
  split at h
  · cases h
  next tag hopening =>
  have htag := orderlyBelow_of_opening? horderly hopening
  obtain ⟨classEdit, hclassEdit, h⟩ := ok_of_bind h
  obtain ⟨styleEdit, hstyleEdit, h⟩ := ok_of_bind h
  obtain ⟨⟨between, classChanges⟩, hclasses, h⟩ := ok_of_bind h
  obtain ⟨⟨after, styleChanges⟩, hinline, h⟩ := ok_of_bind h
  cases h
  obtain ⟨update, name, hplaced, hmem, hreset, hretag⟩ :=
    exists_updateOpening_of_editClasses horderly hfound hopening hvalid hclassEdit hclasses
  have hupdate : ∀ other, element.opening? = some other →
      Retag config.idAttribute (update other) other := by
    intro other hother
    obtain rfl : tag = other := Option.some.inj (hopening.symm.trans hother)
    exact hretag
  cases styleEdit with
  | none =>
    cases hinline
    exact ⟨update, hplaced, hupdate⟩
  | some entries =>
    obtain ⟨second, hsecond, hinline⟩ := ok_of_bind hinline
    obtain ⟨last, hlast, hinline⟩ := ok_of_bind hinline
    cases hinline
    -- the style is written into the element that the classes left
    obtain rfl : element.updateOpening update = second := by
      have hthere := get_of_placed hplaced
      rw [(elementAt_eq_ok hsecond).1] at hthere
      exact (Option.some.inj hthere).symm
    have hread : currentStyle tag = .ok entries.1 := by
      unfold styleEdit? at hstyleEdit
      split at hstyleEdit
      · cases hstyleEdit
      · obtain ⟨before, hbefore, hstyleEdit⟩ := ok_of_bind hstyleEdit
        dsimp only at hstyleEdit
        split at hstyleEdit
        · cases hstyleEdit
        · cases hstyleEdit
          exact hbefore
    refine ⟨fun other => withStyle entries.2 (update other), ?_, fun other hother => ?_⟩
    · rw [← updateOpening_updateOpening fun other hother => (hupdate other hother).kind]
      exact placed_placed hplaced hlast
    · obtain rfl : tag = other := Option.some.inj (hopening.symm.trans hother)
      have hsecondTag := retag_withStyle hid htag (isOpening_of_opening? hopening) hreset
        (fun hname => hstyle (hname ▸ hmem) tag hopening) hread entries.2
      exact hsecondTag.trans hretag

end MarkupEdit.Edit
