import MarkupEdit.Print.Render
import MarkupEdit.Proofs.Edit.LiteralEdit
import MarkupEdit.Proofs.Edit.StyleTag
import MarkupEdit.Proofs.Edit.TextSurvival

/-!
# Ids survive edits

Edits of texts, styles and attributes keep the names and the ids of all elements, in their order, so
an id leads to the same element before and after any number of them. Two things are replaced without
being looked at: the attribute that an edit sets, and an inline style under a name that classes have
as well. There must be no elements in them.

* `ContentEdit`, `ContentRun`: one such edit, and any number of them.
* `identities_of_contentEdit`: what one of them keeps.
* `identities_of_contentRun`: what all of them keep.
* `stableIds_survive`: **names and ids are listed as before, and an id leads to the same element.**
* `stableId_lost`: an inline style is replaced, and an element that was in it is gone.
-/

namespace MarkupEdit.Edit

open MarkupEdit.Text MarkupEdit.Tree MarkupEdit.Print

variable {config : Config} {tree edited last : SourceTree} {path : Path} {element new : Node}
  {changes : List Change} {id : String}

/-! ## One edit -/

/-- An edit of a text, a style or an attribute. -/
def Operation.isContent : Operation → Bool
  | .text _ | .style _ | .setAttribute _ _ => true
  | _ => false

/-- There are no elements in the first attribute of the element with a name. -/
def IsBare (config : Config) (element : Node) (name : String) : Prop :=
  ∀ tag, element.opening? = some tag → ∀ c, tag.children.find? (Node.isAttribute name) = some c →
    c.identities config.idAttribute = []

/-- An operation replaces no attribute with elements without looking at it. -/
def Operation.Spares (operation : Operation) (element : Node) (config : Config) : Prop :=
  match operation with
  | .setAttribute name _ => IsBare config element name
  | .style _ => styleAttribute ∈ config.classAttributes → ∀ tag, element.opening? = some tag →
      ∀ c ∈ tag.children, c.isAttribute styleAttribute = true → c.identities config.idAttribute = []
  | _ => True

/-- One edit of a text, a style or an attribute: of an element, or of the literal that holds a text.
-/
inductive ContentEdit (config : Config) (tree edited : SourceTree) : Prop
  | element (operation : Operation) (path : Path) (element : Node) (changes : List Change)
      (hcontent : operation.isContent = true) (hget : tree.get path = some element)
      (hspares : operation.Spares element config)
      (happly : operation.apply tree path config = .ok (edited, changes))
  | literal (criteria : Criteria) (operation : Operation) (fault : EditFault) (change : Change)
      (hedit : editLiteral config tree criteria operation fault = .ok (edited, change))

theorem alike_of_placed (horderly : tree.root.OrderlyBelow) (hget : tree.get path = some element)
    (hnew : Alike id true new element) (h : placed tree path new = .ok edited) :
    Alike id true edited.root tree.root := by
  obtain ⟨root, hroot, rfl⟩ := placed_eq_ok h
  refine alike_update? horderly (.inl rfl) (fun m m' hm hm' => ?_) hroot
  obtain rfl : element = m := Option.some.inj (hget.symm.trans hm)
  cases hm'
  exact hnew

theorem alike_editText (horderly : tree.root.OrderlyBelow) {text : String}
    (h : editText tree path text = .ok (edited, changes)) :
    Alike id true edited.root tree.root := by
  obtain ⟨element, helement, h⟩ := ok_of_bind h
  obtain ⟨new, hnew, h⟩ := ok_of_bind h
  obtain ⟨t, hplaced, h⟩ := ok_of_bind h
  cases h
  obtain ⟨hget, -⟩ := elementAt_eq_ok helement
  exact alike_of_placed horderly hget (alike_setText (horderly.get hget) hnew) hplaced

theorem alike_editStyle (horderly : tree.root.OrderlyBelow) (hvalid : config.validate = .ok config)
    (hid : config.idAttribute ≠ styleAttribute) (hget : tree.get path = some element)
    {change : StyleChange} (hspares : (Operation.style change).Spares element config)
    (h : editStyle tree path change config = .ok (edited, changes)) :
    Alike config.idAttribute true edited.root tree.root := by
  obtain ⟨update, hplaced, hupdate⟩ :=
    exists_updateOpening_of_editStyle (horderly.get hget) hget hvalid hid hspares h
  exact alike_of_placed horderly hget (alike_updateOpening hupdate) hplaced

theorem alike_editAttribute (horderly : tree.root.OrderlyBelow)
    (hget : tree.get path = some element) {name : String} (hbare : IsBare config element name)
    {value : Option AttributeValue}
    (h : editAttribute tree path name value config = .ok (edited, changes)) :
    Alike config.idAttribute true edited.root tree.root := by
  have hne : name ≠ config.idAttribute := by
    intro heq
    rw [editAttribute, if_pos (beq_iff_eq.mpr heq)] at h
    cases h
  obtain ⟨found, hfound, hplaced⟩ := editAttribute_eq_ok h
  obtain ⟨hget', -⟩ := elementAt_eq_ok hfound
  obtain rfl : element = found := Option.some.inj (hget.symm.trans hget')
  refine alike_of_placed horderly hget (alike_updateOpening fun tag hopening => ?_) hplaced
  have htag := holdsAttributes_of_orderly
    (orderlyBelow_of_opening? (horderly.get hget) hopening).self (isOpening_of_opening? hopening)
  exact (reset_attributeChange _ htag name value).retag hne htag (hbare tag hopening)

/-- **One edit keeps the elements of a tree**, and the grammar is as right about what comes out. -/
theorem identities_of_contentEdit (hvalid : config.validate = .ok config)
    (hid : config.idAttribute ≠ styleAttribute) (horderly : tree.root.OrderlyBelow)
    (h : ContentEdit config tree edited) :
    edited.root.identities config.idAttribute = tree.root.identities config.idAttribute ∧
      edited.root.OrderlyBelow := by
  cases h with
  | element operation path element changes hcontent hget hspares happly =>
    have halike : Alike config.idAttribute true edited.root tree.root := by
      cases operation with
      | text value => exact alike_editText horderly happly
      | style change => exact alike_editStyle horderly hvalid hid hget hspares happly
      | setAttribute name value => exact alike_editAttribute horderly hget hspares happly
      | remove => cases hcontent
      | insert snippet position => cases hcontent
      | replace markup => cases hcontent
      | wrap name attributes => cases hcontent
      | unwrap => cases hcontent
    exact ⟨halike.identities, halike.orderly horderly⟩
  | literal criteria operation fault change hedit =>
    have halike : Alike config.idAttribute false edited.root tree.root :=
      alike_editLiteral horderly hedit
    exact ⟨halike.identities, halike.orderly horderly⟩

/-! ## Any number of edits -/

/-- Edits of texts, styles and attributes in a row. Between two of them the tree may be written and
read again, if what is read has the same elements. -/
inductive ContentRun (config : Config) : SourceTree → SourceTree → Prop
  | done {tree : SourceTree} : ContentRun config tree tree
  | edit {tree edited last : SourceTree} (h : ContentEdit config tree edited)
      (rest : ContentRun config edited last) : ContentRun config tree last
  | reread {tree last : SourceTree} {rendered : Rendered} (h : render tree = .ok rendered)
      (hsame : rendered.tree.root.identities config.idAttribute =
        tree.root.identities config.idAttribute)
      (horderly : rendered.tree.root.OrderlyBelow)
      (rest : ContentRun config rendered.tree last) : ContentRun config tree last

/-- **Edits in a row keep the elements of a tree.** -/
theorem identities_of_contentRun (hvalid : config.validate = .ok config)
    (hid : config.idAttribute ≠ styleAttribute) (horderly : tree.root.OrderlyBelow)
    (h : ContentRun config tree last) :
    last.root.identities config.idAttribute = tree.root.identities config.idAttribute := by
  -- by induction on the edits; the grammar is right about the tree that each one leaves
  induction h with
  | done => rfl
  | edit hedit rest ih =>
    obtain ⟨hsame, hedited⟩ := identities_of_contentEdit hvalid hid horderly hedit
    rw [ih hedited, hsame]
  | reread hrender hsame hreread rest ih => rw [ih hreread, hsame]

/-! ## What an id leads to -/

/-- The name of an element and its id, as they are listed. -/
def Element.identity (element : Element) : Identity := (element.name, element.stableId)

/-- **An id leads to elements at the same index** of lists with the same names and ids. -/
theorem byId?_of_map_identity {before after : List Element}
    (h : after.map Element.identity = before.map Element.identity) (hint : IdHint) :
    ∃ i : Nat, before[i]? = byId? before hint ∧ after[i]? = byId? after hint := by
  unfold byId?
  generalize hint.index = index
  -- the two lists are searched in step: an id is passed in one where it is passed in the other
  induction before generalizing after index with
  | nil => exact ⟨0, rfl, by rw [List.map_eq_nil_iff.mp h]; rfl⟩
  | cons element before ih =>
    obtain ⟨element', after, rfl, hsame, hrest⟩ := List.map_eq_cons_iff.mp h
    have hid : element'.stableId = element.stableId := congrArg Prod.snd hsame
    rw [List.filter_cons, List.filter_cons, hid]
    split
    · cases index with
      | zero => exact ⟨0, rfl, rfl⟩
      | succ index =>
        obtain ⟨i, hbefore, hafter⟩ := ih hrest index
        exact ⟨i + 1, hbefore, hafter⟩
    · obtain ⟨i, hbefore, hafter⟩ := ih hrest index
      exact ⟨i + 1, hbefore, hafter⟩

/-- **Ids survive edits.** An edit of a text, a style or an attribute keeps the list of names and ids,
and after any number of them an id leads to the element at the same index of the list. -/
theorem stableIds_survive (hvalid : config.validate = .ok config)
    (hid : config.idAttribute ≠ styleAttribute) (horderly : tree.root.OrderlyBelow)
    (hheight : tree.root.height ≤ config.maxDepth) :
    (∀ edited, ContentEdit config tree edited → edited.root.height ≤ config.maxDepth →
      (listElements edited config).map Element.identity =
        (listElements tree config).map Element.identity) ∧
    ∀ last, ContentRun config tree last → last.root.height ≤ config.maxDepth →
      (listElements last config).map Element.identity =
        (listElements tree config).map Element.identity ∧
      ∀ hint, ∃ i : Nat, (listElements tree config)[i]? = byId? (listElements tree config) hint ∧
        (listElements last config)[i]? = byId? (listElements last config) hint := by
  have hlisted : ∀ t : SourceTree, t.root.height ≤ config.maxDepth →
      t.root.identities config.idAttribute = tree.root.identities config.idAttribute →
      (listElements t config).map Element.identity =
        (listElements tree config).map Element.identity := by
    intro t ht hsame
    have hbefore := listElements_identities hheight
    have hafter := listElements_identities ht
    exact hafter.trans (hsame.trans hbefore.symm)
  refine ⟨fun edited hedit hedited => ?_, fun last hrun hlast => ?_⟩
  · exact hlisted edited hedited (identities_of_contentEdit hvalid hid horderly hedit).1
  · have hsame := hlisted last hlast (identities_of_contentRun hvalid hid horderly hrun)
    exact ⟨hsame, byId?_of_map_identity hsame⟩

/-! ## Edits of a notice -/

/-- The tree after an operation; if it fails, the tree as it is. -/
def applied (config : Config) (path : Path) (operation : Operation) (tree : SourceTree) :
    SourceTree :=
  match operation.apply tree path config with
  | .ok (edited, _) => edited
  | .error _ => tree

theorem apply_applied {operation : Operation}
    (h : (operation.apply tree path config).isOk = true) :
    ∃ changes,
      operation.apply tree path config = .ok (applied config path operation tree, changes) := by
  unfold applied
  cases happly : operation.apply tree path config with
  | error fault =>
    rw [happly] at h
    cases h
  | ok result => exact ⟨result.2, rfl⟩

theorem contentEdit_applied {operation : Operation} (hcontent : operation.isContent = true)
    (hget : (tree.get path).isSome = true)
    (hspares : ∀ element, tree.get path = some element → operation.Spares element config)
    (h : (operation.apply tree path config).isOk = true) :
    ContentEdit config tree (applied config path operation tree) := by
  obtain ⟨element, helement⟩ := Option.isSome_iff_exists.mp hget
  obtain ⟨changes, happly⟩ := apply_applied h
  exact .element operation path element changes hcontent helement (hspares element helement) happly

/-- A literal in an array, and an element with an id and a style. -/
def noticeText : String := "[\"ok\", <p id=\"a\" style=\"color: red\">hi</p>];"

/-- The nodes of `noticeText`. -/
def noticeNode : Node :=
  Sketch.program [Sketch.statement (.branch .array
    [.token "[", Sketch.string "\"ok\"", .token ",",
      (Sketch.markup "p"
        [Sketch.assigned "id" (Sketch.string "\"a\""),
          Sketch.assigned "style" (Sketch.string "\"color: red\"")]
        [.markupText "hi"]).withLeading " ",
      .token "]"])]

/-- The tree of `noticeText`. -/
def noticeTree : SourceTree := .sketch noticeText noticeNode

/-- A configuration with ids in the attribute `id`. -/
def noticeConfig : Config := { idAttribute := "id" }

/-- The tree after a change of the text of the element. -/
def noticeTexted : SourceTree := applied noticeConfig [0, 0, 3] (.text "yes") noticeTree

/-- The tree after a change of the style as well. -/
def noticeStyled : SourceTree :=
  applied noticeConfig [0, 0, 3]
    (.style ⟨none, [], [], .ofList [("foo", "1"), ("top", "1px")]⟩) noticeTexted

/-- The tree after a change of an attribute as well. -/
def noticeTitled : SourceTree :=
  applied noticeConfig [0, 0, 3] (.setAttribute "title" (some (.text "t"))) noticeStyled

theorem contentRun_notice : ContentRun noticeConfig noticeTree noticeTitled := by
  have htext : ContentEdit noticeConfig noticeTree noticeTexted :=
    contentEdit_applied rfl (by decide +kernel) (fun _ _ => trivial) (by decide +kernel)
  have hstyle : ContentEdit noticeConfig noticeTexted noticeStyled :=
    contentEdit_applied rfl (by decide +kernel) (fun _ _ hclass => absurd hclass (by decide))
      (by decide +kernel)
  -- the attribute is a new one
  have hnone : ((noticeStyled.get [0, 0, 3]).bind fun element => element.opening?.bind fun tag =>
      tag.children.find? (Node.isAttribute "title")).isNone = true := by decide +kernel
  have htitle : ContentEdit noticeConfig noticeStyled noticeTitled := by
    refine contentEdit_applied rfl (by decide +kernel) (fun element helement tag htag c hc => ?_)
      (by decide +kernel)
    rw [helement, Option.bind_some, htag, Option.bind_some, hc] at hnone
    cases hnone
  exact .edit htext (.edit hstyle (.edit htitle .done))

theorem stableIds_survive_notice :
    noticeTree.ReadFrom noticeText ∧ noticeConfig.validate = .ok noticeConfig ∧
      noticeConfig.idAttribute ≠ styleAttribute ∧ noticeTree.root.OrderlyBelow ∧
      noticeTree.root.height ≤ noticeConfig.maxDepth ∧
      ContentRun noticeConfig noticeTree noticeTitled ∧
      noticeTitled.toSource =
        "[\"ok\", <p id=\"a\" style=\x7b\x7b color: \"red\", foo: \"1\" \x7d\x7d " ++
          "className=\"top-px\" title=\"t\">yes</p>];" ∧
      (listElements noticeTitled noticeConfig).map Element.identity =
        (listElements noticeTree noticeConfig).map Element.identity ∧
      ∀ hint, ∃ i : Nat,
        (listElements noticeTree noticeConfig)[i]? =
          byId? (listElements noticeTree noticeConfig) hint ∧
        (listElements noticeTitled noticeConfig)[i]? =
          byId? (listElements noticeTitled noticeConfig) hint := by
  have hread : noticeTree.ReadFrom noticeText :=
    readFrom_sketch (by decide) (by decide)
  have hvalid : noticeConfig.validate = .ok noticeConfig := by decide +kernel
  have hid : noticeConfig.idAttribute ≠ styleAttribute := by decide
  have horderly : noticeTree.root.OrderlyBelow := .of_preorder (by decide +kernel)
  have hheight : noticeTree.root.height ≤ noticeConfig.maxDepth := by decide +kernel
  refine ⟨hread, hvalid, hid, horderly, hheight, contentRun_notice, by decide +kernel, ?_⟩
  exact (stableIds_survive hvalid hid horderly hheight).2 noticeTitled contentRun_notice
    (by decide +kernel)

/-! ## A style that nobody looked at -/

/-- An element with two inline styles. The first can be read; in the second is an element with an id.
-/
def stylesText : String := "<p style=\"color: red\" style=\x7b<b data-stitch-id=\"1\"/>\x7d/>;"

/-- The nodes of `stylesText`. -/
def stylesNode : Node :=
  Sketch.program [Sketch.statement (Sketch.bareTag "p"
    [Sketch.assigned "style" (Sketch.string "\"color: red\""),
      Sketch.assigned "style" (.markupExpression
        (Sketch.bareTag "b" [Sketch.assigned "data-stitch-id" (Sketch.string "\"1\"")]))])]

/-- The tree of `stylesText`. -/
def stylesTree : SourceTree := .sketch stylesText stylesNode

/-- A configuration that looks for classes in the attribute of the inline style. -/
def stylesConfig : Config := { classAttributes := [styleAttribute] }

/-- A change that takes all classes away and sets a property that is no class. -/
def stylesChange : StyleChange := ⟨some "", [], [], .ofList [("foo", "1")]⟩

/-- The tree after that change. -/
def stylesChanged : SourceTree := applied stylesConfig [0, 0] (.style stylesChange) stylesTree

/-- **An id is lost** where classes are kept in the attribute of the inline style. With the classes
the first style goes, the one that was read, and what is written takes the place of the second. -/
theorem stableId_lost :
    stylesTree.ReadFrom stylesText ∧ stylesConfig.validate = .ok stylesConfig ∧
      stylesConfig.idAttribute ≠ styleAttribute ∧
      (∃ element, elementAt stylesTree [0, 0] = .ok element) ∧
      (∃ changes, (Operation.style stylesChange).apply stylesTree [0, 0] stylesConfig =
        .ok (stylesChanged, changes)) ∧
      stylesTree.root.height ≤ stylesConfig.maxDepth ∧
      stylesChanged.root.height ≤ stylesConfig.maxDepth ∧
      stylesChanged.toSource = "<p style=\x7b\x7b color: \"red\", foo: \"1\" \x7d\x7d/>;" ∧
      (listElements stylesTree stylesConfig).map Element.identity =
        [("p", none), ("b", some "1")] ∧
      (listElements stylesChanged stylesConfig).map Element.identity = [("p", none)] :=
  ⟨readFrom_sketch (by decide) (by decide),
    by decide +kernel, by decide, ⟨_, rfl⟩, apply_applied (by decide +kernel), by decide +kernel,
    by decide +kernel, by decide +kernel, by decide +kernel, by decide +kernel⟩

end MarkupEdit.Edit
