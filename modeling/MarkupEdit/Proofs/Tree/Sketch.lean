import MarkupEdit.Proofs.Tree.Frame
import MarkupEdit.Tree.Builder
import MarkupEdit.Tree.Outline

/-!
# Trees that are written down

A tree of a text can be written down as nodes, with the texts and the trivia that they print. Where the
nodes stand follows from what is printed.

* `Node.outline`: the outline of what a node prints.
* `placed_outline_node`: **the outline of a node lies in every text that holds what the node prints.**
* `Sketch.markup`, `Sketch.bareTag`, `Sketch.assigned`: nodes as the grammar gives them, without spans.
-/

namespace MarkupEdit.Tree

open MarkupEdit.Text

namespace Node

mutual

/-- Where a node and the nodes in it stand, if what the node prints starts at a point. -/
def outline (p : Point) : Node → Outline
  | ⟨kind, field, span, leading, text, children, trailing⟩ =>
    let start := p.after leading.toList
    let inside := body ⟨kind, field, span, leading, text, children, trailing⟩
    ⟨kind, field, start, start.byte + byteSize inside.toList,
      outlines (start.after (text.getD "").toList) children⟩

def outlines (p : Point) : List Node → List Outline
  | [] => []
  | n :: rest => outline p n :: outlines (p.after n.full.toList) rest

end

variable {p : Point}

theorem start_outline (p : Point) (n : Node) :
    (n.outline p).start = p.after n.leading.toList := by
  cases n
  rfl

theorem stop_outline (p : Point) (n : Node) :
    (n.outline p).stop = p.byte + byteSize n.full.toList := by
  cases n
  simp only [outline, full, String.toList_append, byteSize_append, Point.after_byte, Nat.add_assoc]

theorem children_outline (p : Point) (n : Node) :
    (n.outline p).children =
      outlines ((p.after n.leading.toList).after (n.text.getD "").toList) n.children := by
  cases n
  rfl

theorem isLeaf_outline (p : Point) (n : Node) :
    (n.outline p).isLeaf = (n.children.isEmpty || n.kind.isVerbatim) := by
  obtain ⟨kind, field, span, leading, text, children, trailing⟩ := n
  cases children <;> rfl

theorem toList_full (n : Node) :
    n.full.toList = n.leading.toList ++
      ((n.text.getD "").toList ++ ((bodies n.children).toList ++ n.trailing.toList)) := by
  rw [full, body_eq]
  simp only [String.toList_append]

/-- The point behind a text has as many bytes in front of it as the text. -/
theorem byte_behind (l : List Char) : (Point.start.after l).byte = byteSize l := by
  rw [Point.after_byte, Point.start, Nat.zero_add]

/-- The trivia of a node is what stands in front of its outline. -/
theorem slice_leading (n : Node) (l r : List Char) :
    slice (l ++ (n.full.toList ++ r)) (byteSize l) (n.outline (Point.start.after l)).start.byte =
      n.leading := by
  rw [start_outline, ← Point.after_append, byte_behind, full, String.toList_append,
    List.append_assoc, slice_of_append, String.ofList_toList]

/-- The text of a node is what its outline covers. -/
theorem slice_body (n : Node) (l r : List Char) :
    slice (l ++ (n.full.toList ++ r)) (n.outline (Point.start.after l)).start.byte
      (n.outline (Point.start.after l)).stop = n.body := by
  rw [start_outline, stop_outline, ← Point.after_append, byte_behind, byte_behind,
    ← byteSize_append, full, String.toList_append, List.append_assoc, ← List.append_assoc l,
    ← List.append_assoc l, slice_of_append, String.ofList_toList]

mutual

/-- **The outline of a node lies in every text that holds what the node prints**, if it starts behind
the part of the text in front of it. -/
theorem placed_outline_node (n : Node) (l r : List Char) :
    (n.outline (Point.start.after l)).Placed (l ++ (n.full.toList ++ r)) := by
  have hchildren := placedAll_outlines n.children (l ++ n.leading.toList ++ (n.text.getD "").toList)
    (n.trailing.toList ++ r)
  have htext : l ++ (n.full.toList ++ r) = l ++ n.leading.toList ++ (n.text.getD "").toList ++
      ((bodies n.children).toList ++ (n.trailing.toList ++ r)) := by
    rw [toList_full]
    simp only [List.append_assoc]
  have hstart : IsBoundary (l ++ (n.full.toList ++ r)) (byteSize (l ++ n.leading.toList)) := by
    rw [htext, List.append_assoc _ _ (_ ++ _)]
    exact ⟨_, _, rfl, rfl⟩
  have hstop : IsBoundary (l ++ (n.full.toList ++ r)) (byteSize l + byteSize n.full.toList) :=
    ⟨l ++ n.full.toList, r, by rw [List.append_assoc], byteSize_append _ _⟩
  rw [← htext, byte_behind] at hchildren
  rw [Outline.placed_iff, start_outline, stop_outline, children_outline, ← Point.after_append,
    ← Point.after_append, byte_behind, byte_behind]
  refine ⟨hstart, hstop, ?_⟩
  -- the children start behind the text of the node and end in front of its trailing trivia
  have htrailing : Outline.PlacedAll (l ++ (n.full.toList ++ r))
      (byteSize (l ++ n.leading.toList ++ (n.text.getD "").toList ++ (bodies n.children).toList))
      (byteSize l + byteSize n.full.toList) [] := by
    rw [Outline.PlacedAll, toList_full]
    simp only [byteSize_append]
    omega
  have hends := hchildren.append htrailing
  rw [List.append_nil] at hends
  refine hends.from_before ?_
  rw [byteSize_append (l ++ _)]
  exact Nat.le_add_right _ _
termination_by sizeOf n
decreasing_by
  cases n
  simp only [mk.sizeOf_spec]
  omega

/-- Nodes that follow one another stand between the start of the first and the end of the last. -/
theorem placedAll_outlines (ns : List Node) (l r : List Char) :
    Outline.PlacedAll (l ++ ((bodies ns).toList ++ r)) (Point.start.after l).byte
      (byteSize (l ++ (bodies ns).toList)) (outlines (Point.start.after l) ns) := by
  match ns with
  | [] =>
    show _ ≤ _
    rw [byte_behind, byteSize_append]
    exact Nat.le_add_right _ _
  | n :: rest =>
    have hfirst := placed_outline_node n l ((bodies rest).toList ++ r)
    have hrest := placedAll_outlines rest (l ++ n.full.toList) r
    have htext : l ++ ((bodies (n :: rest)).toList ++ r) =
        l ++ (n.full.toList ++ ((bodies rest).toList ++ r)) := by
      rw [bodies_cons, String.toList_append, List.append_assoc]
    rw [byte_behind, byteSize_append, Point.after_append, List.append_assoc, List.append_assoc]
      at hrest
    rw [htext, bodies_cons, String.toList_append]
    refine ⟨?_, hfirst, ?_⟩
    · rw [start_outline, Point.after_byte _ n.leading.toList]
      exact Nat.le_add_right _ _
    · rw [stop_outline, byte_behind]
      exact hrest
termination_by sizeOf ns

end

end Node

/-! ## Markup as the grammar gives it -/

namespace Sketch

open Node

def program (statements : List Node) : Node := branch .program statements

/-- A statement that is an expression. -/
def statement (n : Node) : Node := branch (.other "expression_statement") [n, token ";"]

/-- A tag that opens an element. A fragment has no name. -/
def openingTag (name : String) (attributes : List Node) : Node :=
  (branch .jsxOpeningElement (token "<" :: (tagName name ++ (attributes ++ [token ">"])))).withField
    "open_tag"

def closingTag (name : String) : Node :=
  (branch .jsxClosingElement (token "</" :: (tagName name ++ [token ">"]))).withField "close_tag"

/-- An element with content. -/
def markup (name : String) (attributes content : List Node) : Node :=
  branch .jsxElement (openingTag name attributes :: (content ++ [closingTag name]))

/-- An element that closes itself. -/
def bareTag (name : String) (attributes : List Node) : Node :=
  branch .jsxSelfClosingElement (token "<" :: (tagName name ++ (attributes ++ [token "/>"])))

/-- An attribute behind a blank. -/
def assigned (name : String) (value : Node) : Node :=
  ((branch .jsxAttribute [leaf .propertyIdentifier name, token "=", value]).withField
    "attribute").withLeading " "

/-- A string with its quotes. -/
def string (text : String) : Node := leaf .string text

end Sketch

end MarkupEdit.Tree
