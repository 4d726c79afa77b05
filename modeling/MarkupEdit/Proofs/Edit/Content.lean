import MarkupEdit.Proofs.Edit.TagEdit

/-!
# Content between tags

The content of an element is what is between the tag that opens it and the last one that closes it.
Other content can take its place, if it holds no such tags itself.

* `HasContent`: an element with its content between its tags.
* `HasContent.contentRange?`, `HasContent.content_eq`: where the content is.
* `HasContent.splice`: **other content between the same tags.**
* `exists_hasContent`: the content of an element that has a place for it.
-/

namespace MarkupEdit.Edit

open MarkupEdit.Text MarkupEdit.Tree

variable {element tag closing : Node} {front content back nodes : List Node} {start stop : Nat}

theorem findIdx?_append_cons {α : Type} {q : α → Bool} {front back : List α} {a : α} (ha : q a = true)
    (hfront : ∀ d ∈ front, q d = false) :
    (front ++ a :: back).findIdx? q = some front.length := by
  have hnone : front.findIdx? q = none := List.findIdx?_eq_none_iff.mpr hfront
  rw [List.findIdx?_append, hnone, Option.none_or, List.findIdx?_cons, if_pos ha, Option.map_some,
    Nat.zero_add]

/-- An element with its content between its tags, and what else there may be around them. -/
structure HasContent (element : Node) (front : List Node) (tag : Node) (content : List Node)
    (closing : Node) (back : List Node) : Prop where
  kind : element.kind = .jsxElement
  children : element.children = front ++ tag :: (content ++ closing :: back)
  tag : tag.kind = .jsxOpeningElement
  closing : closing.kind = .jsxClosingElement
  front : ∀ c ∈ front, (c.kind == .jsxOpeningElement) = false
  back : ∀ c ∈ back, (c.kind == .jsxClosingElement) = false

namespace HasContent

theorem tagAmong (h : HasContent element front tag content closing back) :
    TagAmong element front tag (content ++ closing :: back) :=
  ⟨h.kind, h.children, h.tag, h.front⟩

theorem opening? (h : HasContent element front tag content closing back) :
    element.opening? = some tag := h.tagAmong.opening?

theorem contentRange? (h : HasContent element front tag content closing back) :
    element.contentRange? = some (front.length + 1, front.length + 1 + content.length) := by
  have hopening : element.children.findIdx? (·.kind == .jsxOpeningElement) = some front.length := by
    rw [h.children]
    exact findIdx?_append_cons (beq_iff_eq.mpr h.tag) h.front
  have hclosing : element.children.reverse.findIdx? (·.kind == .jsxClosingElement) =
      some back.length := by
    have hreverse : element.children.reverse =
        back.reverse ++ closing :: (front ++ tag :: content).reverse := by
      rw [h.children]
      simp
    have hfirst : (back.reverse ++ closing :: (front ++ tag :: content).reverse).findIdx?
        (·.kind == .jsxClosingElement) = some back.reverse.length :=
      findIdx?_append_cons (beq_iff_eq.mpr h.closing)
        fun c hc => h.back c (List.mem_reverse.mp hc)
    rw [hreverse, hfirst, List.length_reverse]
  have hlength : element.children.length =
      front.length + 1 + content.length + (back.length + 1) := by
    rw [h.children]
    simp only [List.length_append, List.length_cons]
    omega
  rw [Node.contentRange?, if_neg (by rw [h.kind]; decide), hopening, hclosing, hlength]
  dsimp only
  have hstop : front.length + 1 + content.length + (back.length + 1) - 1 - back.length =
      front.length + 1 + content.length := by omega
  rw [hstop, if_pos (Nat.le_add_right _ _)]

theorem take_start (h : HasContent element front tag content closing back) :
    element.children.take (front.length + 1) = front ++ [tag] := by
  rw [h.children, List.take_length_add_append, List.take_succ_cons, List.take_zero]

theorem drop_start (h : HasContent element front tag content closing back) :
    element.children.drop (front.length + 1) = content ++ closing :: back := by
  rw [h.children, List.drop_length_add_append, List.drop_succ_cons, List.drop_zero]

theorem content_eq (h : HasContent element front tag content closing back) :
    element.content = content := by
  rw [Node.content, h.contentRange?]
  dsimp only
  rw [List.drop_take, h.drop_start, Nat.add_sub_cancel_left, List.take_left]

/-- **Other content between the same tags.** -/
theorem splice (h : HasContent element front tag content closing back) (nodes : List Node) :
    HasContent (element.splice (front.length + 1) (front.length + 1 + content.length) nodes) front
      tag nodes closing back := by
  refine ⟨h.kind, ?_, h.tag, h.closing, h.front, h.back⟩
  show element.children.take (front.length + 1) ++
    (nodes ++ element.children.drop (front.length + 1 + content.length)) = _
  rw [h.take_start, ← List.drop_drop, h.drop_start, List.drop_left, List.append_assoc]
  rfl

/-- The content that is there already changes nothing. -/
theorem splice_self (h : HasContent element front tag content closing back) :
    element.splice (front.length + 1) (front.length + 1 + content.length) content = element := by
  have hchildren := (h.splice content).children.trans h.children.symm
  have hsplice : element.splice (front.length + 1) (front.length + 1 + content.length) content =
      element.withChildren (element.splice (front.length + 1)
        (front.length + 1 + content.length) content).children := rfl
  rw [hsplice, hchildren]
  cases element
  rfl

end HasContent

/-- **The content of an element that has a place for it.** -/
theorem exists_hasContent (h : element.contentRange? = some (start, stop)) :
    ∃ front tag content closing back, HasContent element front tag content closing back ∧
      start = front.length + 1 ∧ stop = front.length + 1 + content.length := by
  unfold Node.contentRange? at h
  split at h
  · cases h
  next hkind =>
  rw [bne_iff_ne, ne_eq, Classical.not_not] at hkind
  split at h
  · next opening fromEnd hopening hclosing =>
    obtain ⟨front, tag, rest, hchildren, rfl, htag, hfront⟩ := exists_split_of_findIdx? hopening
    obtain ⟨back, closing, before, hreverse, rfl, hclosing, hback⟩ :=
      exists_split_of_findIdx? hclosing
    have hchildren' : element.children = before.reverse ++ closing :: back.reverse := by
      rw [← List.reverse_reverse element.children, hreverse]
      simp
    have hstop : element.children.length - 1 - back.length = before.length := by
      rw [hchildren']
      simp only [List.length_append, List.length_cons, List.length_reverse]
      omega
    dsimp only at h
    rw [hstop] at h
    split at h
    · next hle =>
      cases h
      -- the first tag is in front of the last one that closes
      have htake : before.reverse.take (front.length + 1) = front ++ [tag] := by
        have hlist := congrArg (List.take (front.length + 1)) (hchildren.symm.trans hchildren')
        rw [List.take_length_add_append, List.take_succ_cons, List.take_zero,
          List.take_append_of_le_length (by simpa using hle)] at hlist
        exact hlist.symm
      have hsplit : before.reverse =
          front ++ tag :: before.reverse.drop (front.length + 1) := by
        rw [← List.take_append_drop (front.length + 1) before.reverse, htake, List.append_assoc]
        simp
      refine ⟨front, tag, before.reverse.drop (front.length + 1), closing, back.reverse,
        ⟨hkind, ?_, beq_iff_eq.mp htag, beq_iff_eq.mp hclosing, hfront,
          fun c hc => hback c (List.mem_reverse.mp hc)⟩, rfl, ?_⟩
      · rw [hchildren', hsplit, List.append_assoc, List.cons_append]
        simp
      · rw [List.length_drop, List.length_reverse]
        omega
    · cases h
  · cases h

end MarkupEdit.Edit
