import MarkupEdit.Proofs.Edit.StyleTag

/-!
# Texts that are replaced

The text of an element is replaced only if it is text, and a text holds no elements. An element that
closes itself gets tags of its own, with its name and its attributes.

* `identities_of_textObstacle?`: what does not keep a text from being set holds no elements.
* `essential_promote`: what matters in a tag is in the tag that takes its place.
* `alike_setText`: **an element with another text stays the same element.**
-/

namespace MarkupEdit.Edit

open MarkupEdit.Text MarkupEdit.Tree

variable {id : String} {values : Bool} {element new c : Node} {nodes : List Node}

/-- What does not keep a text from being set holds no elements. -/
theorem identities_of_textObstacle? (horderly : c.OrderlyBelow) {name : String}
    (h : textObstacle? name c = none) : c.identities id = [] := by
  have hverbatim : c.kind.isVerbatim = true → c.identities id = [] := fun hkind =>
    Node.identities_of_children_eq_nil (horderly.self.leaf (.inr (.inl hkind)))
  unfold textObstacle? at h
  split at h
  · next hkind => exact hverbatim (by rw [hkind]; rfl)
  · next hkind => exact hverbatim (by rw [hkind]; rfl)
  · next hkind => exact hverbatim (by rw [hkind]; rfl)
  · cases h
  · cases h
  · next hkind =>
    split at h
    · next hreadable =>
      rcases Bool.or_eq_true_iff.mp hreadable with hcomment | htext
      · refine Node.identities_of_namedChildren horderly
          (Node.identity?_of_not_isElement (by rw [hkind]; rfl)) fun d hd => ?_
        rw [List.isEmpty_iff.mp (Bool.and_eq_true_iff.mp hcomment).1] at hd
        cases hd
      · obtain ⟨text, htext⟩ := Option.isSome_iff_exists.mp htext
        exact identities_of_bracedText? horderly hkind htext
    · cases h
  · cases h

/-- What shows a text holds no elements. -/
theorem identities_of_mem_textNodes {text leading : String} {edges : Edges}
    (h : c ∈ textNodes text leading edges) : c.identities id = [] := by
  unfold textNodes at h
  split at h
  · cases h
  split at h
  · rcases List.mem_cons.mp h with rfl | h
    · rw [Node.identities_withLeading]
      exact identities_markupExpression (identities_leaf _ _)
    · split at h
      · cases h
      · rw [List.mem_singleton.mp h]
        exact identities_leaf _ _
  · rw [List.mem_singleton.mp h, Node.identities_withLeading]
    exact identities_leaf _ _

theorem orderlyBelow_of_mem_textNodes {text leading : String} {edges : Edges}
    (h : c ∈ textNodes text leading edges) : c.OrderlyBelow := by
  unfold textNodes at h
  split at h
  · cases h
  split at h
  · rcases List.mem_cons.mp h with rfl | h
    · exact (orderlyBelow_markupExpression (orderlyBelow_stringLiteral text '"')).congr rfl rfl rfl
    · split at h
      · cases h
      · rw [List.mem_singleton.mp h]
        exact Node.orderlyBelow_leaf rfl _
  · rw [List.mem_singleton.mp h]
    exact Node.orderlyBelow_of_children_eq_nil rfl rfl

theorem orderlyBelow_closingTag (name : String) : (Node.closingTag name).OrderlyBelow := by
  refine .intro (Node.orderly_of_text_eq_none rfl (.inr (.inl rfl))) fun c hc => ?_
  rcases List.mem_append.mp hc with hc | hc
  · rcases List.mem_append.mp hc with hc | hc
    · rcases List.mem_cons.mp hc with rfl | hc
      · exact Node.orderlyBelow_leaf rfl _
      · rw [List.mem_singleton.mp hc]
        exact Node.orderlyBelow_leaf rfl _
    · unfold Node.tagName at hc
      split at hc
      · cases hc
      · rw [List.mem_singleton.mp hc]
        exact Node.orderlyBelow_of_children_eq_nil rfl rfl
  · rw [List.mem_singleton.mp hc]
    exact Node.orderlyBelow_leaf rfl _

theorem identities_closingTag (name : String) : (Node.closingTag name).identities id = [] := by
  refine (Node.identities_of_not_isElement (n := Node.closingTag name) rfl).trans
    (Node.identitiesAll_eq_nil fun c hc => Node.identities_of_children_eq_nil ?_)
  rcases List.mem_append.mp hc with hc | hc
  · rcases List.mem_append.mp hc with hc | hc
    · rcases List.mem_cons.mp hc with rfl | hc
      · rfl
      · rw [List.mem_singleton.mp hc]
        rfl
    · unfold Node.tagName at hc
      split at hc
      · cases hc
      · rw [List.mem_singleton.mp hc]
        rfl
  · rw [List.mem_singleton.mp hc]
    rfl

theorem kind_of_endsTag (h : c.endsTag = true) : c.kind = .token := by
  unfold Node.endsTag Node.isToken at h
  simp only [Bool.or_eq_true, Bool.and_eq_true, beq_iff_eq] at h
  rcases h with (h | h) | h <;> exact h.1

/-- The marks at the end of a tag do not matter. -/
theorem isInert_of_endsTag (horderly : element.OrderlyBelow) (hkind : element.kind.isOpening = true)
    (hc : c ∈ element.children) (h : c.endsTag = true) : c.isInert id = true := by
  have htoken := kind_of_endsTag h
  have hbare : c.identities id = [] :=
    Node.identities_of_children_eq_nil ((horderly.child hc).self.leaf (.inl htoken))
  have hfield : c.field ≠ some "name" := by
    intro hfield
    have hkinds := (horderly.self.name hkind c hc hfield).2
    rw [htoken] at hkinds
    exact absurd hkinds (by decide)
  have hid : c.isAttribute id = false := by
    rw [Node.isAttribute, htoken]
    rfl
  rw [Node.isInert, hbare, hid, bne_iff_ne.mpr hfield]
  rfl

/-- **What matters in a tag is in the tag that takes its place.** -/
theorem essential_promote (id : String) (horderly : element.OrderlyBelow)
    (hkind : element.kind.isOpening = true) :
    Node.essential id (element.children.filter (fun child => !child.endsTag) ++ [.token ">"]) =
      Node.essential id element.children := by
  have hmark : (Node.token ">").isInert id = true := by
    rw [Node.isInert, Node.identities_of_children_eq_nil rfl]
    rfl
  rw [Node.essential, Node.essential, List.filter_append, List.filter_cons_of_neg (by simp [hmark]),
    List.filter_nil, List.append_nil, List.filter_filter]
  refine List.filter_congr fun c hc => ?_
  cases hend : c.endsTag with
  | false => rw [Bool.not_false, Bool.and_true]
  | true => rw [isInert_of_endsTag horderly hkind hc hend]; rfl

/-- The grammar is right about the element that takes its place. -/
theorem orderlyBelow_promote (horderly : element.OrderlyBelow)
    (hkind : element.kind = .jsxSelfClosingElement) (h : ∀ c ∈ nodes, c.OrderlyBelow) :
    (element.promote nodes).OrderlyBelow := by
  rw [Node.promote, if_neg (by rw [hkind]; decide)]
  refine .intro (Node.orderly_of_text_eq_none rfl (.inl rfl)) fun c hc => ?_
  rcases List.mem_cons.mp hc with rfl | hc
  · -- the new tag has the children of the old one
    have hold : ∀ c ∈ element.children.filter (fun child => !child.endsTag) ++ [Node.token ">"],
        c ∈ element.children ∨ c = Node.token ">" := by
      intro c hc
      rcases List.mem_append.mp hc with hc | hc
      · exact .inl (List.mem_filter.mp hc).1
      · exact .inr (List.mem_singleton.mp hc)
    refine .intro ?_ fun c hc => ?_
    · refine ⟨⟨?name, ?head, ?before, ?value, ?pair, ?key, ?entry⟩, ?leaf, ?tag⟩
      case name =>
        intro _ c hc hfield
        rcases hold c hc with hc | rfl
        · exact horderly.self.name (by rw [hkind]; rfl) c hc hfield
        · cases hfield
      all_goals simp [Node.branch, Node.withField, Kind.isVerbatim]
    · rcases hold c hc with hc | rfl
      · exact horderly.child hc
      · exact Node.orderlyBelow_leaf rfl _
  · rcases List.mem_append.mp hc with hc | hc
    · exact h c hc
    · rw [List.mem_singleton.mp hc]
      exact orderlyBelow_closingTag _

/-- An element that closes itself gets tags of its own, and stays the same element. -/
theorem alike_promote (horderly : element.OrderlyBelow)
    (hkind : element.kind = .jsxSelfClosingElement) (h : ∀ c ∈ nodes, c.identities id = [])
    (hnodes : ∀ c ∈ nodes, c.OrderlyBelow) :
    Alike id values (element.promote nodes) element := by
  -- the element was its own tag; now its tag is among its children, with the same in it
  have hessential := essential_promote id horderly (by rw [hkind]; rfl)
  have hpromoted := orderlyBelow_promote horderly hkind hnodes
  generalize htag : (Node.branch .jsxOpeningElement
    (element.children.filter (fun child => !child.endsTag) ++ [.token ">"])).withField "open_tag" =
      tag
  have hchildren : tag.children =
      element.children.filter (fun child => !child.endsTag) ++ [.token ">"] := by rw [← htag]; rfl
  have htagKind : tag.kind = .jsxOpeningElement := by rw [← htag]; rfl
  have hpromote : element.promote nodes =
      { (Node.branch .jsxElement (tag :: (nodes ++ [Node.closingTag element.nameText]))) with
        leading := element.leading, field := element.field } := by
    rw [Node.promote, if_neg (by rw [hkind]; decide), ← htag]
  have hamong : TagAmong (element.promote nodes) [] tag
      (nodes ++ [Node.closingTag element.nameText]) := by
    rw [hpromote]
    exact ⟨rfl, rfl, htagKind, fun c hc => nomatch hc⟩
  rw [← hchildren] at hessential
  have htagIdentities : tag.identities id = Node.identitiesAll id element.children := by
    rw [Node.identities_of_not_isElement (by rw [htagKind]; rfl),
      Node.identitiesAll_of_essential hessential]
  have hbehind : Node.identitiesAll id (nodes ++ [Node.closingTag element.nameText]) = [] := by
    rw [Node.identitiesAll_append, Node.identitiesAll_eq_nil h, Node.identitiesAll,
      identities_closingTag]
    rfl
  refine ⟨face_of_isElement (by rw [hamong.kind]; rfl) (by rw [hkind]; rfl) (by rw [hpromote]), ?_,
    fun _ => hpromoted⟩
  rw [hamong.identities, hbehind, htagIdentities, Node.signature?_of_essential hessential,
    Node.identities_eq, Node.identity?, opening?_of_selfClosing hkind, Option.bind_some,
    List.append_nil]
  rfl

/-- Where the content of an element is: behind its tag, in front of the one that closes it. -/
theorem contentRange?_eq_some {start stop : Nat} (h : element.contentRange? = some (start, stop)) :
    ∃ front tag back, TagAmong element front tag back ∧ start = front.length + 1 ∧
      start ≤ stop := by
  unfold Node.contentRange? at h
  split at h
  · cases h
  next hkind =>
  split at h
  · next opening fromEnd hopening _ =>
    obtain ⟨front, tag, back, hchildren, rfl, htag, hfront⟩ := exists_split_of_findIdx? hopening
    dsimp only at h
    split at h
    · next hle =>
      cases h
      rw [bne_iff_ne, ne_eq, Classical.not_not] at hkind
      exact ⟨front, tag, back, ⟨hkind, hchildren, beq_iff_eq.mp htag, hfront⟩, rfl, hle⟩
    · cases h
  · cases h

/-- Other content without elements in place of such content. -/
theorem alike_splice {start stop : Nat} (hrange : element.contentRange? = some (start, stop))
    (hcontent : ∀ c ∈ element.content, c.identities id = [])
    (h : ∀ c ∈ nodes, c.identities id = []) (hnodes : ∀ c ∈ nodes, c.OrderlyBelow) :
    Alike id values (element.splice start stop nodes) element := by
  obtain ⟨front, tag, back, hamong, hstart, hle⟩ := contentRange?_eq_some hrange
  have helement : element.kind.isElement = true := by rw [hamong.kind]; rfl
  have htake : element.children.take start = front ++ [tag] := by
    rw [hamong.children, hstart, List.take_length_add_append, List.take_succ_cons, List.take_zero]
  have hsplice : element.splice start stop nodes =
      element.withChildren (front ++ tag :: (nodes ++ element.children.drop stop)) := by
    rw [Node.splice, htake, List.append_assoc]
    rfl
  -- behind the tag is the content, which holds no elements, and what stays
  have hback : Node.identitiesAll id back =
      Node.identitiesAll id (element.children.drop stop) := by
    have hdrop : back = (element.children.drop start).take (stop - start) ++
        element.children.drop stop := by
      rw [← drop_split _ hle, hamong.children, hstart, List.drop_length_add_append]
      rfl
    have hnone : Node.identitiesAll id ((element.children.drop start).take (stop - start)) = [] := by
      refine Node.identitiesAll_eq_nil fun c hc => hcontent c ?_
      rw [Node.content, hrange]
      dsimp only
      rwa [List.drop_take]
    rw [hdrop, Node.identitiesAll_append, hnone, List.nil_append]
  have hamong' := hamong.withChildren hamong.tag (nodes ++ element.children.drop stop)
  rw [hsplice]
  refine ⟨face_of_isElement helement helement rfl, ?_, fun horderly => ?_⟩
  · rw [hamong'.identities, hamong.identities, hback, Node.identitiesAll_append (l := nodes),
      Node.identitiesAll_eq_nil h, List.nil_append]
  · have hold : ∀ c ∈ front ++ tag :: back, c.OrderlyBelow := fun c hc =>
      horderly.child (by rwa [hamong.children])
    refine hamong.orderlyBelow horderly fun c hc => ?_
    rcases List.mem_append.mp hc with hc | hc
    · exact hold c (List.mem_append_left _ hc)
    rcases List.mem_cons.mp hc with rfl | hc
    · exact hold c (List.mem_append_right _ List.mem_cons_self)
    rcases List.mem_append.mp hc with hc | hc
    · exact hnodes c hc
    · exact horderly.child (List.mem_of_mem_drop hc)

/-- **An element with another text stays the same element.** -/
theorem alike_setText (horderly : element.OrderlyBelow) {text : String}
    (h : setText element text = .ok new) : Alike id values new element := by
  unfold setText at h
  dsimp only at h
  split at h
  · cases h
  next hreadable =>
  have hinside : ∀ c ∈ element.content, c.OrderlyBelow := by
    intro c hc
    unfold Node.content at hc
    split at hc
    · exact horderly.child (List.mem_of_mem_take (List.mem_of_mem_drop hc))
    · cases hc
  have hcontent : ∀ c ∈ element.content, c.identities id = [] := fun c hc =>
    identities_of_textObstacle? (hinside c hc) (List.findSome?_eq_none_iff.mp hreadable c hc)
  have hnodes : ∀ c ∈ textNodes text ((element.content.head?.map Node.leading).getD "")
      (.ofContent element.content) ++
      element.content.filter (fun child => child.kind == .jsxExpression && isCommentOnly child),
      c.identities id = [] ∧ c.OrderlyBelow := by
    intro c hc
    rcases List.mem_append.mp hc with hc | hc
    · exact ⟨identities_of_mem_textNodes hc, orderlyBelow_of_mem_textNodes hc⟩
    · exact ⟨hcontent c (List.mem_filter.mp hc).1, hinside c (List.mem_filter.mp hc).1⟩
  -- an element that closes itself has no place for a text
  split at h
  · next hself =>
    cases h
    split
    · exact .refl id values element
    · exact alike_promote horderly (beq_iff_eq.mp hself) (fun c hc => (hnodes c hc).1)
        fun c hc => (hnodes c hc).2
  · split at h
    · next start stop hrange =>
      cases h
      exact alike_splice hrange hcontent (fun c hc => (hnodes c hc).1) fun c hc => (hnodes c hc).2
    · cases h

end MarkupEdit.Edit
