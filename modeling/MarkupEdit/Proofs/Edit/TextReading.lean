import Mathlib.Data.List.Find
import MarkupEdit.Edit.Engine
import MarkupEdit.Proofs.Edit.Content
import MarkupEdit.Proofs.Edit.StyleEffect
import MarkupEdit.Proofs.Tree.Cache
import MarkupEdit.Proofs.Print.Ink
import MarkupEdit.Proofs.Text.Trimming
import MarkupEdit.Proofs.Text.Words

/-!
# Texts that are set are shown

The text of an element can be set exactly if its content is literal: texts, references, comments, and
braces around a comment or around a literal. The element shows the text then, with single spaces for its
blanks, for the blanks that stay from the old content are around it. Its name, its attributes and the
comments in braces stay.

* `ShowsText`: content that is literal.
* `Framed`: what the grammar says of an element.
* `Retexted`: an element with other content.
* `blankWords_textNodes`: **the nodes for a text have its words.**
* `setText_cases`: when a text can be set, and what the element is then.
* `editText_cases`: the same of the whole edit.
* `directText_of_editText`: **a text that is set is shown**, and an edit that fails changes nothing.
-/

namespace MarkupEdit.Edit

open MarkupEdit.Text MarkupEdit.Tree MarkupEdit.Print

variable {element new tag closing c : Node} {front content back nodes : List Node} {text : String}

/-! ## Literal content -/

/-- Content that is literal. -/
def ShowsText (child : Node) : Prop :=
  child.kind ∈ [.jsxText, .htmlCharacterReference, .comment] ∨
    child.kind = .jsxExpression ∧ (isCommentOnly child = true ∨ (bracedText? child).isSome = true)

instance : DecidablePred ShowsText := fun _ => inferInstanceAs (Decidable (_ ∨ _ ∧ _))

/-- Braces around comments, as content of an element. -/
def isCommentBraces (child : Node) : Bool := child.kind == .jsxExpression && isCommentOnly child

/-- Literal content, and only that, does not keep a text from being set. -/
theorem textObstacle?_eq_none_iff (name : String) (child : Node) :
    textObstacle? name child = none ↔ ShowsText child := by
  unfold textObstacle? ShowsText
  split
  · next hkind => simp [hkind]
  · next hkind => simp [hkind]
  · next hkind => simp [hkind]
  · next hkind => simp [hkind]
  · next hkind => simp [hkind]
  · next hkind =>
    rw [hkind]
    by_cases hreadable : (isCommentOnly child || (bracedText? child).isSome) = true
    · rw [if_pos hreadable]
      exact iff_of_true rfl (.inr ⟨rfl, Bool.or_eq_true_iff.mp hreadable⟩)
    · rw [if_neg hreadable]
      refine iff_of_false (fun h => nomatch h) ?_
      rintro (hmem | ⟨-, hliteral⟩)
      · exact absurd hmem (by decide)
      · exact hreadable (Bool.or_eq_true_iff.mpr hliteral)
  · next h₁ h₂ h₃ h₄ h₅ h₆ =>
    refine iff_of_false (fun h => nomatch h) ?_
    rintro (hmem | ⟨hkind, -⟩)
    · simp only [List.mem_cons, List.not_mem_nil, or_false] at hmem
      rcases hmem with hkind | hkind | hkind
      · exact h₁ hkind
      · exact h₂ hkind
      · exact h₃ hkind
    · exact h₆ hkind

/-! ## Elements and their content -/

/-- The tag that takes the place of an element that closes itself. -/
def promotedTag (element : Node) : Node :=
  (Node.branch .jsxOpeningElement
    (element.children.filter (fun child => !child.endsTag) ++ [.token ">"])).withField "open_tag"

/-- An element that closes itself gets tags of its own. -/
theorem hasContent_promote (hkind : element.kind = .jsxSelfClosingElement) (nodes : List Node) :
    HasContent (element.promote nodes) [] (promotedTag element) nodes
      (Node.closingTag element.nameText) [] := by
  rw [Node.promote, if_neg (by rw [hkind]; decide)]
  exact ⟨rfl, rfl, rfl, rfl, List.forall_mem_nil _, List.forall_mem_nil _⟩

/-- What the grammar says of an element. -/
structure Framed (element : Node) : Prop where
  /-- Content is between two tags. -/
  tags : element.kind = .jsxElement →
    Enclosed (·.kind == .jsxOpeningElement) (·.kind == .jsxClosingElement) element.children
  /-- Only blanks are left out between the parts of it. -/
  blank : ∀ child ∈ element.content, allBlank child.leading = true
  /-- The name of an element that closes itself is no mark at the end. -/
  name : element.kind = .jsxSelfClosingElement →
    ∀ child ∈ element.children, child.field = some "name" → child.endsTag = false

instance (element : Node) : Decidable (Framed element) :=
  decidable_of_iff
    ((element.kind = .jsxElement →
        Enclosed (·.kind == .jsxOpeningElement) (·.kind == .jsxClosingElement) element.children) ∧
      (∀ child ∈ element.content, allBlank child.leading = true) ∧
      (element.kind = .jsxSelfClosingElement →
        ∀ child ∈ element.children, child.field = some "name" → child.endsTag = false))
    ⟨fun ⟨h₁, h₂, h₃⟩ => ⟨h₁, h₂, h₃⟩, fun h => ⟨h.tags, h.blank, h.name⟩⟩

theorem Framed.exists_hasContent (h : Framed element) (hkind : element.kind = .jsxElement) :
    ∃ tag closing, HasContent element [] tag element.content closing [] := by
  have hapart : ∀ c : Node, (c.kind == .jsxOpeningElement) = true →
      (c.kind == .jsxClosingElement) = false := by
    intro c hc
    rw [beq_iff_eq.mp hc]
    rfl
  obtain ⟨tag, body, closing, hchildren, htag, hclosing, -⟩ := (h.tags hkind).split hapart
  have hbody : HasContent element [] tag body closing [] :=
    ⟨hkind, hchildren, beq_iff_eq.mp htag, beq_iff_eq.mp hclosing, List.forall_mem_nil _,
      List.forall_mem_nil _⟩
  refine ⟨tag, closing, ?_⟩
  rw [hbody.content_eq]
  exact hbody

/-! ## The same element with other content -/

/-- The attributes in the tag of an element. -/
def tagAttributes (element : Node) : Option (List Node) :=
  element.opening?.map (fun tag => tag.children.filter (·.kind == .jsxAttribute))

/-- An element with other content: it has its name and its attributes. -/
structure Retexted (element : Node) (nodes : List Node) (new : Node) : Prop where
  kind : new.kind.isElement = true
  content : new.content = nodes
  name : new.elementName? = element.elementName?
  attributes : tagAttributes new = tagAttributes element

theorem retexted_splice (h : HasContent element front tag content closing back)
    (nodes : List Node) : Retexted element nodes
      (element.splice (front.length + 1) (front.length + 1 + content.length) nodes) := by
  have hnew := h.splice nodes
  refine ⟨by rw [hnew.kind]; rfl, hnew.content_eq, ?_, ?_⟩
  · rw [Node.elementName?, Node.elementName?, hnew.opening?, h.opening?]
  · rw [tagAttributes, tagAttributes, hnew.opening?, h.opening?]

theorem endsTag_of_attribute (h : c.kind = .jsxAttribute) : c.endsTag = false := by
  unfold Node.endsTag Node.isToken
  rw [h]
  rfl

theorem retexted_promote (h : Framed element) (hkind : element.kind = .jsxSelfClosingElement)
    (nodes : List Node) : Retexted element nodes (element.promote nodes) := by
  have hpromoted := hasContent_promote hkind nodes
  have hself := opening?_of_selfClosing hkind
  have hchildren : (promotedTag element).children =
      element.children.filter (fun child => !child.endsTag) ++ [.token ">"] := rfl
  refine ⟨by rw [hpromoted.kind]; rfl, hpromoted.content_eq, ?_, ?_⟩
  · -- the name is not among the marks that are left out
    have hname : (promotedTag element).childByField? "name" = element.childByField? "name" := by
      have hmark : [Node.token ">"].find? (·.field == some "name") = none := rfl
      rw [Node.childByField?, Node.childByField?, hchildren, List.find?_append, List.find?_filter,
        hmark, Option.or_none]
      refine List.find?_congr fun child hchild => ?_
      by_cases hfield : child.field = some "name"
      · have hend := h.name hkind child hchild hfield
        simp [hfield, hend]
      · simp [hfield]
    rw [Node.elementName?, Node.elementName?, hpromoted.opening?, hself, Option.bind_some,
      Option.bind_some, hname]
  · rw [tagAttributes, tagAttributes, hpromoted.opening?, hself, Option.map_some, Option.map_some,
      hchildren, List.filter_append, List.filter_filter]
    have hmark : [Node.token ">"].filter (·.kind == .jsxAttribute) = [] := rfl
    rw [hmark, List.append_nil]
    refine congrArg some (List.filter_congr fun child _ => ?_)
    by_cases hattribute : child.kind = .jsxAttribute
    · simp [endsTag_of_attribute hattribute]
    · simp [hattribute]

/-- An element that closes itself has no content. -/
theorem retexted_self (hkind : element.kind = .jsxSelfClosingElement) :
    Retexted element [] element := by
  have hrange : element.contentRange? = none := by
    rw [Node.contentRange?, if_pos (by rw [hkind]; decide)]
  refine ⟨by rw [hkind]; rfl, ?_, rfl, rfl⟩
  rw [Node.content, hrange]

/-! ## What the nodes for a text show -/

/-- What the nodes for a text keep of the old content are blanks. -/
theorem allBlank_ofContent (content : List Node) :
    allBlank (Edges.ofContent content).before = true ∧
      allBlank (Edges.ofContent content).after = true := by
  have hstart : ∀ s, allBlank (Edges.blankStart s) = true := by
    intro s
    rw [allBlank_iff, Edges.blankStart, String.toList_ofList]
    intro c hc
    exact List.mem_takeWhile_imp hc
  have hend : ∀ s, allBlank (Edges.blankEnd s) = true := by
    intro s
    rw [allBlank_iff, Edges.blankEnd, String.toList_ofList]
    intro c hc
    exact List.mem_takeWhile_imp (List.mem_reverse.mp hc)
  unfold Edges.ofContent
  refine ⟨?_, ?_⟩
  · dsimp only
    cases content.head?.bind (fun child => if child.kind == .jsxText then child.text else none) with
    | none => rfl
    | some first => exact hstart first
  · dsimp only
    split
    · rfl
    · cases (content.filter (·.kind == .jsxText)).getLast?.bind Node.text with
      | none => rfl
      | some last => exact hend last

/-- The characters that some content shows. -/
def shownChars (content : List Node) : List Char := content.flatMap (fun c => (textPiece c).toList)

theorem directText_eq (element : Node) :
    directText element = normalized (String.ofList (shownChars element.content)) := by
  refine normalized_congr ?_
  rw [String.toList_join, String.toList_ofList, List.flatMap_map]
  rfl

theorem textPiece_markupText {text : String} (h : '&' ∉ text.toList) (leading : String) :
    (textPiece ((Node.markupText text).withLeading leading)).toList =
      leading.toList ++ text.toList := by
  show (leading ++ String.ofList (decodeReferences text.toList)).toList = _
  rw [decodeReferences_of_not_mem h, String.toList_append, String.toList_ofList]

theorem bracedText?_literal (text leading : String) :
    bracedText? ((Node.markupExpression (.stringLiteral text '"')).withLeading leading) =
      some text :=
  (bracedText?_markupExpression rfl).trans (staticValue?_stringLiteral (.inl rfl) text)

theorem textPiece_literal (text leading : String) :
    (textPiece ((Node.markupExpression (.stringLiteral text '"')).withLeading leading)).toList =
      leading.toList ++ text.toList := by
  show (leading ++ (bracedText? _).getD " ").toList = _
  rw [bracedText?_literal, String.toList_append]
  rfl

theorem not_mem_of_allBlank {s : String} (h : allBlank s = true) : '&' ∉ s.toList := by
  intro hmem
  exact absurd (allBlank_iff.mp h '&' hmem) (by decide)

/-- **The nodes for a text have its words**, if what is around them is blank. -/
theorem blankWords_textNodes {leading : String} {edges : Edges} (hleading : allBlank leading = true)
    (hbefore : allBlank edges.before = true) (hafter : allBlank edges.after = true) :
    blankWords (shownChars (textNodes text leading edges)) = blankWords text.toList := by
  have hfront : ∀ c ∈ leading.toList ++ edges.before.toList, isBlank c = true := by
    intro c hc
    rcases List.mem_append.mp hc with hc | hc
    · exact allBlank_iff.mp hleading c hc
    · exact allBlank_iff.mp hbefore c hc
  unfold textNodes
  split
  · next hempty =>
    rw [beq_iff_eq.mp hempty]
    rfl
  split
  · -- a literal, and the blanks behind it
    have hback : ∀ c ∈ shownChars (if edges.after == "" then [] else [.markupText edges.after]),
        isBlank c = true := by
      intro c hc
      split at hc
      · exact absurd hc List.not_mem_nil
      · rw [shownChars, List.flatMap_singleton] at hc
        have hpiece := textPiece_markupText (not_mem_of_allBlank hafter) ""
        have hsame : (Node.markupText edges.after).withLeading "" = .markupText edges.after := rfl
        rw [hsame] at hpiece
        rw [hpiece] at hc
        exact allBlank_iff.mp hafter c hc
    rw [shownChars, List.flatMap_cons, ← shownChars, textPiece_literal,
      blankWords_append_blank _ hback, String.toList_append, blankWords_blank_append hfront]
  · -- text between tags
    next hplain =>
    have htext : '&' ∉ text.toList := by
      intro hmem
      refine hplain ?_
      rw [needsLiteral, Bool.or_eq_true, List.any_eq_true]
      exact .inl ⟨'&', hmem, by decide⟩
    have hall : '&' ∉ (edges.before ++ text ++ edges.after).toList := by
      rw [String.toList_append, String.toList_append, List.mem_append, List.mem_append, not_or,
        not_or]
      exact ⟨⟨not_mem_of_allBlank hbefore, htext⟩, not_mem_of_allBlank hafter⟩
    rw [shownChars, List.flatMap_singleton, textPiece_markupText hall, String.toList_append,
      String.toList_append, ← List.append_assoc, ← List.append_assoc,
      blankWords_append_blank _ (allBlank_iff.mp hafter), blankWords_blank_append hfront]

/-- Braces around comments show blanks. -/
theorem isBlank_of_commentBraces (h : isCommentBraces c = true) (hblank : allBlank c.leading = true) :
    ∀ d ∈ (textPiece c).toList, isBlank d = true := by
  obtain ⟨hkind, hcomment⟩ := Bool.and_eq_true_iff.mp h
  have htext : bracedText? c = none := by
    rw [bracedText?, List.isEmpty_iff.mp (Bool.and_eq_true_iff.mp hcomment).1]
  have hpiece : textPiece c = c.leading ++ " " := by
    rw [textPiece, beq_iff_eq.mp hkind, htext]
    rfl
  rw [hpiece, String.toList_append]
  intro d hd
  rcases List.mem_append.mp hd with hd | hd
  · exact allBlank_iff.mp hblank d hd
  · rw [List.mem_singleton.mp hd]
    decide

theorem not_commentBraces_of_mem_textNodes {leading : String} {edges : Edges}
    (h : c ∈ textNodes text leading edges) : isCommentBraces c = false := by
  unfold textNodes at h
  split at h
  · exact absurd h List.not_mem_nil
  split at h
  · rcases List.mem_cons.mp h with rfl | h
    · have hnamed : ((Node.markupExpression (.stringLiteral text '"')).withLeading
          (leading ++ edges.before)).namedChildren = [(Node.stringLiteral text '"').withLeading ""] :=
        namedChildren_markupExpression rfl
      rw [isCommentBraces, isCommentOnly, hnamed]
      rfl
    · split at h
      · exact absurd h List.not_mem_nil
      · rw [List.mem_singleton.mp h]
        rfl
  · rw [List.mem_singleton.mp h]
    rfl

/-! ## Setting a text -/

/-- The content of an element once its text is set: the nodes for the text, and its comments. -/
def contentFor (text : String) (element : Node) : List Node :=
  textNodes text ((element.content.head?.map Node.leading).getD "") (.ofContent element.content) ++
    element.content.filter isCommentBraces

/-- The first thing in an element that keeps its text from being set. -/
def obstacle? (element : Node) : Option EditFault :=
  element.content.findSome? (textObstacle? (element.elementName?.getD ""))

theorem setText_of_some {fault : EditFault} (h : obstacle? element = some fault) (text : String) :
    setText element text = .error fault := by
  unfold obstacle? at h
  unfold setText
  dsimp only
  rw [h]

/-- **What setting a text does**, if nothing is in the way. -/
theorem setText_of_none (h : obstacle? element = none) (text : String) :
    setText element text =
      if element.kind == .jsxSelfClosingElement then
        .ok (if (contentFor text element).isEmpty then element
          else element.promote (contentFor text element))
      else
        match element.contentRange? with
        | some (start, stop) => .ok (element.splice start stop (contentFor text element))
        | none => .error (.unclosed (element.elementName?.getD "")) := by
  unfold obstacle? at h
  unfold setText
  dsimp only
  rw [h]
  rfl

/-- **The content for a text shows it.** -/
theorem blankWords_contentFor (h : Framed element) (text : String) :
    blankWords (shownChars (contentFor text element)) = blankWords text.toList := by
  have hleading : allBlank ((element.content.head?.map Node.leading).getD "") = true := by
    cases hhead : element.content.head? with
    | none => rfl
    | some first => exact h.blank first (List.mem_of_head? hhead)
  have hcomments : ∀ d ∈ shownChars (element.content.filter isCommentBraces), isBlank d = true := by
    intro d hd
    obtain ⟨child, hchild, hd⟩ := List.mem_flatMap.mp hd
    obtain ⟨hcontent, hcomment⟩ := List.mem_filter.mp hchild
    exact isBlank_of_commentBraces hcomment (h.blank child hcontent) d hd
  obtain ⟨hbefore, hafter⟩ := allBlank_ofContent element.content
  rw [contentFor, shownChars, List.flatMap_append, ← shownChars, ← shownChars,
    blankWords_append_blank _ hcomments, blankWords_textNodes hleading hbefore hafter]

theorem filter_contentFor (text : String) (element : Node) :
    (contentFor text element).filter isCommentBraces = element.content.filter isCommentBraces := by
  have hnone : ∀ edges leading, (textNodes text leading edges).filter isCommentBraces = [] := by
    intro edges leading
    rw [List.filter_eq_nil_iff]
    intro c hc
    rw [not_commentBraces_of_mem_textNodes hc]
    exact Bool.false_ne_true
  rw [contentFor, List.filter_append, hnone, List.nil_append, List.filter_filter]
  simp

/-- **A text can be set if all content is literal, and else not.** -/
theorem setText_cases (h : Framed element) (hkind : element.kind.isElement = true) (text : String) :
    ((∀ child ∈ element.content, ShowsText child) ∧
        ∃ new, setText element text = .ok new ∧
          Retexted element (contentFor text element) new) ∨
      ((¬ ∀ child ∈ element.content, ShowsText child) ∧
        ∃ fault, setText element text = .error fault) := by
  have hobstacle : obstacle? element = none ↔ ∀ child ∈ element.content, ShowsText child := by
    rw [obstacle?, List.findSome?_eq_none_iff]
    exact forall₂_congr fun child _ => textObstacle?_eq_none_iff _ child
  cases hfault : obstacle? element with
  | some fault =>
    refine .inr ⟨?_, fault, setText_of_some hfault text⟩
    rw [← hobstacle, hfault]
    exact fun h => nomatch h
  | none =>
  refine .inl ⟨hobstacle.mp hfault, ?_⟩
  rw [setText_of_none hfault]
  by_cases hself : element.kind = .jsxSelfClosingElement
  · rw [if_pos (beq_iff_eq.mpr hself)]
    refine ⟨_, rfl, ?_⟩
    by_cases hempty : contentFor text element = []
    · rw [hempty]
      exact retexted_self hself
    · rw [if_neg (by simpa using hempty)]
      exact retexted_promote h hself _
  · rw [if_neg (by simpa using hself)]
    have helement : element.kind = .jsxElement := by
      revert hkind hself
      cases element.kind <;> simp [Kind.isElement]
    obtain ⟨tag, closing, hcontent⟩ := h.exists_hasContent helement
    rw [hcontent.contentRange?]
    exact ⟨_, rfl, retexted_splice hcontent _⟩

/-! ## The whole edit -/

variable {tree edited : SourceTree} {path : Path}

/-- An element after its text was set: it shows the text, and keeps its comments in braces, its name and
its attributes. -/
structure ShowsNow (text : String) (element element' : Node) : Prop where
  text : directText element' = normalized text
  comments : element'.content.filter isCommentBraces = element.content.filter isCommentBraces
  name : element'.elementName? = element.elementName?
  attributes : tagAttributes element' = tagAttributes element

theorem showsNow_of_retexted (h : Framed element)
    (hnew : Retexted element (contentFor text element) new) : ShowsNow text element new where
  text := by
    rw [directText_eq, hnew.content]
    refine normalized_congr ?_
    rw [String.toList_ofList]
    exact blankWords_contentFor h text
  comments := by rw [hnew.content, filter_contentFor]
  name := hnew.name
  attributes := hnew.attributes

/-- **The edit puts the element with the text in its place**, or fails for content that is not literal. -/
theorem editText_cases (helement : elementAt tree path = .ok element) (hframed : Framed element)
    (text : String) :
    ((∀ child ∈ element.content, ShowsText child) ∧
        ∃ edited changes element', editText tree path text = .ok (edited, changes) ∧
          elementAt edited path = .ok element' ∧
          Retexted element (contentFor text element) element') ∨
      ((¬ ∀ child ∈ element.content, ShowsText child) ∧
        ∃ fault, editText tree path text = .error fault) := by
  have hkind := (elementAt_eq_ok helement).2
  have hedit : editText tree path text = (setText element text).bind (fun new =>
      (placed tree path new).bind (fun edited =>
        .ok (edited, [.modified path.text (directText element) text]))) := by
    rw [editText, helement]
    rfl
  rw [hedit]
  rcases setText_cases hframed hkind text with ⟨hliteral, new, hset, hnew⟩ | ⟨hnot, fault, hset⟩
  · obtain ⟨edited, hplaced⟩ := exists_placed helement new
    refine .inl ⟨hliteral, edited, [.modified path.text (directText element) text], new, ?_,
      elementAt_of_placed hplaced hnew.kind, hnew⟩
    rw [hset, Except.bind, hplaced]
    rfl
  · refine .inr ⟨hnot, fault, ?_⟩
    rw [hset]
    rfl

/-- A request that fails leaves its file with the tree that it had. -/
theorem transform_of_error {config : Config} {cache : ParseCache} {request : Request}
    {strategy : Strategy} {fault : EditFault}
    (hparse : (cache.parse request.source request.file).2 = .ok tree)
    (hlocate : locate tree request.source config request.locator = .ok (path, strategy))
    (h : request.operation.apply tree path config = .error fault) :
    (transform config cache request).2 = .failed fault ∧
      ((transform config cache request).1.parse request.source request.file).2 = .ok tree := by
  have htransform : transform config cache request =
      ((cache.parse request.source request.file).1, .failed fault) := by
    have hpair : cache.parse request.source request.file =
        ((cache.parse request.source request.file).1, .ok tree) := Prod.ext rfl hparse
    rw [transform, hpair]
    dsimp only
    rw [editTree, hlocate]
    dsimp only
    rw [h]
    rfl
  rw [htransform]
  exact ⟨rfl, ParseCache.parse_again hparse⟩

/-- **A text can be set exactly if all content is literal. The element shows it then**, and has the name,
the attributes and the comments that it had. A request that cannot set it leaves the tree as it is. -/
theorem directText_of_editText (helement : elementAt tree path = .ok element)
    (hframed : Framed element) (text : String) :
    ((∃ edited changes, editText tree path text = .ok (edited, changes)) ↔
        ∀ child ∈ element.content, ShowsText child) ∧
      (∀ edited changes, editText tree path text = .ok (edited, changes) →
        ∃ element', elementAt edited path = .ok element' ∧ ShowsNow text element element') ∧
      ∀ fault, editText tree path text = .error fault →
        ∀ (config : Config) (cache : ParseCache) (request : Request) (strategy : Strategy),
          (cache.parse request.source request.file).2 = .ok tree →
          locate tree request.source config request.locator = .ok (path, strategy) →
          request.operation = .text text →
          (transform config cache request).2 = .failed fault ∧
            ((transform config cache request).1.parse request.source request.file).2 =
              .ok tree := by
  have hcases := editText_cases helement hframed text
  refine ⟨?_, ?_, ?_⟩
  · rcases hcases with ⟨hliteral, edited, changes, -, hedit, -⟩ | ⟨hnot, fault, hfault⟩
    · exact iff_of_true ⟨edited, changes, hedit⟩ hliteral
    · refine iff_of_false ?_ hnot
      rintro ⟨edited, changes, hedit⟩
      rw [hfault] at hedit
      cases hedit
  · intro edited changes hedit
    rcases hcases with ⟨-, edited', changes', element', hedit', helement', hnew⟩ | ⟨-, fault, hfault⟩
    · rw [hedit] at hedit'
      cases hedit'
      exact ⟨element', helement', showsNow_of_retexted hframed hnew⟩
    · rw [hfault] at hedit
      cases hedit
  · intro fault hfault config cache request strategy hparse hlocate hoperation
    refine transform_of_error hparse hlocate ?_
    rw [hoperation]
    exact hfault

/-! ## A text and a comment -/

/-- An element with a text and a comment. -/
def notedText : String := "<p>Hi \x7b/* a */\x7d</p>;"

/-- The nodes of `notedText`. -/
def notedNode : Node :=
  Sketch.program [Sketch.statement (Sketch.markup "p" []
    [.markupText "Hi ", .markupExpression (.leaf .comment "/* a */")])]

/-- The tree of `notedText`. -/
def notedTree : SourceTree := .sketch notedText notedNode

theorem directText_of_editText_noted :
    notedTree.ReadFrom notedText ∧
      ∃ element, elementAt notedTree [0, 0] = .ok element ∧ Framed element ∧
        ∃ edited changes element', editText notedTree [0, 0] " a  & b" = .ok (edited, changes) ∧
          edited.toSource = "<p>\x7b\" a  & b\"\x7d \x7b/* a */\x7d</p>;" ∧
          elementAt edited [0, 0] = .ok element' ∧ directText element' = "a & b" := by
  have hread : notedTree.ReadFrom notedText :=
    readFrom_sketch (by decide) (by decide)
  have helement : elementAt notedTree [0, 0] = .ok ((notedTree.get [0, 0]).getD default) := rfl
  have hframed : Framed ((notedTree.get [0, 0]).getD default) := by decide +kernel
  have hliteral : ∀ child ∈ ((notedTree.get [0, 0]).getD default).content, ShowsText child := by
    decide +kernel
  obtain ⟨hiff, hshown, -⟩ := directText_of_editText helement hframed " a  & b"
  obtain ⟨edited, changes, hedit⟩ := hiff.mpr hliteral
  obtain ⟨element', helement', hnow⟩ := hshown edited changes hedit
  have hsource : (editText notedTree [0, 0] " a  & b").map (fun result => result.1.toSource) =
      .ok "<p>\x7b\" a  & b\"\x7d \x7b/* a */\x7d</p>;" := by decide +kernel
  rw [hedit] at hsource
  have htext : directText element' = "a & b" := by
    rw [hnow.text]
    decide +kernel
  exact ⟨hread, _, helement, hframed, edited, changes, element', hedit, Except.ok.inj hsource,
    helement', htext⟩

end MarkupEdit.Edit
