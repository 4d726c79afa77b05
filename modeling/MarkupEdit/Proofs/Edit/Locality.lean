import MarkupEdit.Edit.Apply
import MarkupEdit.Edit.LiteralSource
import MarkupEdit.Proofs.Tree.Conversion

/-!
# Edits are local

Every operation on the element at a path puts another node in the place of the element, or puts
other nodes beside it or in its place among its siblings. So the text changes between the start of
the trivia in front of the element and its end, and nowhere else.

* `EditsAt`: what an edit of the element at a path may do to a tree.
* `toSource_of_editsAt`: such an edit keeps the text in front of the element and behind it.
* `editsAt_of_apply`: **every operation is such an edit.**
* `apply_local`: no byte outside the target of an edit changes.
-/

namespace MarkupEdit.Edit

open MarkupEdit.Text MarkupEdit.Tree

/-! ## Results in a row -/

theorem ok_of_bind {ε α β : Type} {x : Except ε α} {f : α → Except ε β} {r : β}
    (h : x >>= f = .ok r) : ∃ a, x = .ok a ∧ f a = .ok r := by
  cases x with
  | error e => cases h
  | ok a => exact ⟨a, rfl, h⟩

theorem ok_of_map {ε α β : Type} {x : Except ε α} {f : α → β} {r : β} (h : x.map f = .ok r) :
    ∃ a, x = .ok a ∧ f a = r := by
  cases x with
  | error e => cases h
  | ok a => exact ⟨a, rfl, Except.ok.inj h⟩

/-! ## Steps that edits share -/

variable {tree t edited : SourceTree} {path parent : Path} {n node element : Node}
  {changes : List Change} {config : Config} {start stop index : Nat} {nodes : List Node}

theorem elementAt_eq_ok (h : elementAt tree path = .ok n) :
    tree.get path = some n ∧ n.kind.isElement = true := by
  unfold elementAt at h
  split at h
  · next m hm =>
    split at h
    · next hk =>
      cases h
      exact ⟨hm, hk⟩
    · cases h
  · cases h

theorem placed_eq_ok (h : placed tree path node = .ok edited) :
    ∃ root, tree.root.update? (fun _ => some node) path = some root ∧
      edited = { tree with root := root } := by
  unfold placed SourceTree.replace at h
  split at h
  · next hr =>
    split at hr
    · next root _ hu =>
      cases hr
      cases h
      exact ⟨root, hu, rfl⟩
    · cases hr
  · cases h

theorem placed_of_update? {root : Node}
    (h : tree.root.update? (fun _ => some node) path = some root) :
    placed tree path node = .ok { tree with root := root } := by
  obtain ⟨old, -, hold, -⟩ := Node.update?_spec h
  rw [placed, SourceTree.replace, SourceTree.get, hold]
  simp only [h]

theorem spliced_eq_ok (h : spliced tree parent start stop nodes = .ok edited) :
    ∃ root, tree.root.update? (fun n => some (n.splice start stop nodes)) parent = some root ∧
      edited = { tree with root := root } := by
  unfold spliced at h
  split at h
  · next root hu =>
    cases h
    exact ⟨root, hu, rfl⟩
  · cases h

theorem placed_self (h : tree.get path = some n) : placed tree path n = .ok tree :=
  placed_of_update? (Node.update?_self h)

/-- Any node can be put in the place of an element. -/
theorem exists_placed (h : elementAt tree path = .ok element) (node : Node) :
    ∃ edited, placed tree path node = .ok edited := by
  obtain ⟨root, hroot⟩ := Node.exists_update? (elementAt_eq_ok h).1 node
  exact ⟨_, placed_of_update? hroot⟩

/-- Of two nodes put at a path one after the other, the second stays. -/
theorem placed_placed {first second : Node} (h₁ : placed tree path first = .ok t)
    (h₂ : placed t path second = .ok edited) : placed tree path second = .ok edited := by
  obtain ⟨r₁, hu₁, rfl⟩ := placed_eq_ok h₁
  obtain ⟨r₂, hu₂, rfl⟩ := placed_eq_ok h₂
  rw [Node.update?_update? (h := fun _ => some second) hu₁ (fun _ _ _ _ => rfl)] at hu₂
  exact placed_of_update? hu₂

/-- Changing the children of a node that was just put at a path is putting the changed node. -/
theorem placed_spliced (h₁ : placed tree path node = .ok t)
    (h₂ : spliced t path start stop nodes = .ok edited) :
    placed tree path (node.splice start stop nodes) = .ok edited := by
  obtain ⟨r₁, hu₁, rfl⟩ := placed_eq_ok h₁
  obtain ⟨r₂, hu₂, rfl⟩ := spliced_eq_ok h₂
  rw [Node.update?_update? (h := fun _ => some (node.splice start stop nodes)) hu₁
    (fun _ _ _ hm => by cases hm; rfl)] at hu₂
  exact placed_of_update? hu₂

/-- A node that is removed makes way for none among its siblings. -/
theorem spliced_of_remove {old : Node}
    (h : tree.remove (parent ++ [index]) = .ok (edited, old)) :
    spliced tree parent index (index + 1) [] = .ok edited := by
  have herase : (fun p : Node => some (p.withChildren (p.children.eraseIdx index))) =
      fun p => some (p.splice index (index + 1) []) := by
    funext p
    rw [Node.splice, List.nil_append, List.eraseIdx_eq_take_drop_succ]
    rfl
  rw [SourceTree.remove, List.getLast?_concat, List.dropLast_concat] at h
  dsimp only at h
  rw [herase] at h
  split at h
  · cases h
  split at h
  · next hroot =>
    cases h
    rw [spliced, hroot]
  · cases h

theorem markupSlot?_eq_some (h : markupSlot? tree path = some (parent, index)) :
    path = parent ++ [index] := by
  unfold markupSlot? at h
  split at h
  · next p i hp hi =>
    split at h
    · split at h
      · cases h
        unfold Path.parent? at hp
        split at hp
        · cases hp
        · cases hp
          obtain ⟨front, rfl⟩ := List.getLast?_eq_some_iff.mp hi
          rw [List.dropLast_concat]
      · cases h
    · cases h
  · cases h

theorem requireSlot_eq_ok {action : String}
    (h : requireSlot tree path action = .ok (parent, index)) : path = parent ++ [index] := by
  unfold requireSlot at h
  split at h
  · next slot hs =>
    cases h
    exact markupSlot?_eq_some hs
  · cases h

/-! ## What edits do -/

/-- What an edit of the element at a path may do to a tree: put a node in the place of the element,
or put nodes in front of it, behind it or in its place among the children around it. -/
inductive EditsAt (tree : SourceTree) (path : Path) (edited : SourceTree) : Prop where
  | inPlace (node : Node) (h : placed tree path node = .ok edited)
  | among (parent : Path) (index start stop : Nat) (nodes : List Node)
    (hpath : path = parent ++ [index]) (hstart : index ≤ start) (hle : start ≤ stop)
    (hstop : stop ≤ index + 1) (h : spliced tree parent start stop nodes = .ok edited)

/-- An edit changes nothing of a tree but its nodes. -/
theorem EditsAt.rest (h : EditsAt tree path edited) : edited = { tree with root := edited.root } := by
  cases h with
  | inPlace node h =>
    obtain ⟨root, -, rfl⟩ := placed_eq_ok h
    rfl
  | among parent index start stop nodes hpath hstart hle hstop h =>
    obtain ⟨root, -, rfl⟩ := spliced_eq_ok h
    rfl

theorem take_split {α : Type} (l : List α) {i j : Nat} (h : i ≤ j) :
    l.take j = l.take i ++ (l.take j).drop i := by
  have := List.take_append_drop i (l.take j)
  rwa [List.take_take, Nat.min_eq_left h, eq_comm] at this

theorem drop_split {α : Type} (l : List α) {i j : Nat} (h : i ≤ j) :
    l.drop i = (l.drop i).take (j - i) ++ l.drop j := by
  have := List.take_append_drop (j - i) (l.drop i)
  rwa [List.drop_drop, Nat.add_sub_cancel' h, eq_comm] at this

/-- **An edit at a path keeps the text in front of the node there and behind it.** -/
theorem toSource_of_editsAt (h : EditsAt tree path edited) (hn : tree.get path = some n) :
    ∃ new, edited.toSource = tree.front path ++ (new ++ tree.back path) := by
  cases h with
  | inPlace node h =>
    obtain ⟨root, hu, rfl⟩ := placed_eq_ok h
    obtain ⟨-, m', -, -, hsource⟩ := SourceTree.toSource_of_update? hu
    exact ⟨m'.full, hsource⟩
  | among parent index start stop nodes hpath hstart hle hstop h =>
    subst hpath
    obtain ⟨root, hu, rfl⟩ := spliced_eq_ok h
    obtain ⟨p, p', hp, hp', hsource⟩ := SourceTree.toSource_of_update? hu
    cases hp'
    have hc : p.children[index]? = some n := by
      rw [SourceTree.get] at hn hp
      rw [Node.get_append, hp, Option.bind_some] at hn
      obtain ⟨child, hc, hm⟩ := Node.get_cons_eq_some hn
      rw [hc, ← hm]
      rfl
    -- the children in front of the element and behind it stay where they are
    refine ⟨Node.bodies ((p.children.take start).drop index) ++ (Node.bodies nodes ++
      Node.bodies ((p.children.drop stop).take (index + 1 - stop))), ?_⟩
    have htake : Node.bodies (p.children.take start) =
        Node.bodies (p.children.take index) ++
          Node.bodies ((p.children.take start).drop index) := by
      rw [← Node.bodies_append, ← take_split p.children hstart]
    have hdrop : Node.bodies (p.children.drop stop) =
        Node.bodies ((p.children.drop stop).take (index + 1 - stop)) ++
          Node.bodies (p.children.drop (index + 1)) := by
      rw [← Node.bodies_append, ← drop_split p.children hstop]
    rw [hsource, SourceTree.front, SourceTree.front, SourceTree.back, SourceTree.back,
      Node.front_child hp hc, Node.back_child hp hc, Node.full, Node.body_eq]
    simp only [Node.splice, Node.bodies_append, htake, hdrop, String.append_assoc]

/-! ## Every operation -/

theorem editText_eq_ok {text : String} (h : editText tree path text = .ok (edited, changes)) :
    ∃ element, elementAt tree path = .ok element ∧ EditsAt tree path edited := by
  obtain ⟨element, helement, h⟩ := ok_of_bind h
  obtain ⟨new, -, h⟩ := ok_of_bind h
  obtain ⟨t, ht, h⟩ := ok_of_bind h
  cases h
  exact ⟨element, helement, .inPlace new ht⟩

theorem editAttribute_eq_ok {name : String} {value : Option AttributeValue}
    (h : editAttribute tree path name value config = .ok (edited, changes)) :
    ∃ element, elementAt tree path = .ok element ∧
      placed tree path (setAttribute element name value) = .ok edited := by
  unfold editAttribute at h
  split at h
  · cases h
  split at h
  · cases h
  obtain ⟨element, helement, h⟩ := ok_of_bind h
  split at h
  · cases h
  · obtain ⟨t, ht, h⟩ := ok_of_bind h
    cases h
    exact ⟨element, helement, ht⟩

/-- The class attribute is set in the element at the path, or nothing happens to the element. -/
theorem editClasses_eq_ok {classEdit : Option CurrentClasses} (hn : tree.get path = some n)
    (h : editClasses tree path classEdit config = .ok (edited, changes)) :
    ∃ node, placed tree path node = .ok edited := by
  cases classEdit with
  | none =>
    cases h
    exact ⟨n, placed_self hn⟩
  | some current =>
    obtain ⟨element, -, hplaced⟩ := editAttribute_eq_ok h
    exact ⟨_, hplaced⟩

theorem editInlineStyle_eq_ok {styleEdit : Option (List StyleEntry × List StyleEntry)}
    (h : editInlineStyle tree path styleEdit = .ok (edited, changes)) :
    edited = tree ∨ ∃ node, placed tree path node = .ok edited := by
  match styleEdit with
  | none =>
    cases h
    exact .inl rfl
  | some (before, after) =>
    obtain ⟨element, -, h⟩ := ok_of_bind h
    obtain ⟨t, ht, h⟩ := ok_of_bind h
    cases h
    exact .inr ⟨_, ht⟩

/-- A change of the classes and one of the inline style, made in a row, are one change of the
element. -/
theorem editStyle_eq_ok {change : StyleChange}
    (h : editStyle tree path change config = .ok (edited, changes)) :
    ∃ element, elementAt tree path = .ok element ∧ EditsAt tree path edited := by
  obtain ⟨element, helement, h⟩ := ok_of_bind h
  refine ⟨element, helement, ?_⟩
  split at h
  · cases h
  obtain ⟨classEdit, -, h⟩ := ok_of_bind h
  obtain ⟨styleEdit, -, h⟩ := ok_of_bind h
  obtain ⟨⟨t, classChanges⟩, hclass, h⟩ := ok_of_bind h
  obtain ⟨⟨t', styleChanges⟩, hstyle, h⟩ := ok_of_bind h
  cases h
  -- both put a node at the path, and the second one stays
  obtain ⟨node, hnode⟩ := editClasses_eq_ok (elementAt_eq_ok helement).1 hclass
  cases editInlineStyle_eq_ok hstyle with
  | inl hsame => exact .inPlace node (hsame ▸ hnode)
  | inr hplaced =>
    obtain ⟨node', hnode'⟩ := hplaced
    exact .inPlace node' (placed_placed hnode hnode')

theorem editRemove_eq_ok (h : editRemove tree path = .ok (edited, changes)) :
    ∃ element, elementAt tree path = .ok element ∧ EditsAt tree path edited := by
  obtain ⟨element, helement, h⟩ := ok_of_bind h
  obtain ⟨⟨parent, index⟩, hslot, h⟩ := ok_of_bind h
  obtain rfl := requireSlot_eq_ok hslot
  split at h
  · next hremoved =>
    cases h
    exact ⟨element, helement, .among parent index index (index + 1) [] rfl (Nat.le_refl _)
      (Nat.le_succ _) (Nat.le_refl _) (spliced_of_remove hremoved)⟩
  · cases h

/-- New siblings go between the element and one of its neighbours. -/
theorem siblingPoint_eq_ok {target : Node} {isAfter : Bool} {point : InsertionPoint}
    (h : siblingPoint tree path target isAfter = .ok point) :
    ∃ index, path = point.parent ++ [index] ∧ index ≤ point.index ∧ point.index ≤ index + 1 := by
  obtain ⟨⟨parent, index⟩, hslot, h⟩ := ok_of_bind h
  cases h
  refine ⟨index, requireSlot_eq_ok hslot, ?_, ?_⟩ <;> simp only <;> split <;> omega

theorem childPoint_eq_ok {target : Node} {isLast : Bool} {point : InsertionPoint}
    (h : childPoint path target isLast = .ok point) : point.parent = path := by
  unfold childPoint at h
  split at h
  · cases h
  · cases h
    rfl

/-- Nodes go beside the element, or into it once it has a closing tag. -/
theorem insertionPoint_eq_ok {target : Node} {position : InsertPosition} {point : InsertionPoint}
    (h : insertionPoint tree path target position = .ok (t, point)) :
    (t = tree ∧ ∃ index, path = point.parent ++ [index] ∧ index ≤ point.index ∧
      point.index ≤ index + 1) ∨
    (placed tree path (target.promote []) = .ok t ∧ point.parent = path) := by
  cases position with
  | before | after =>
    obtain ⟨p, hp, h⟩ := ok_of_bind h
    cases h
    exact .inl ⟨rfl, siblingPoint_eq_ok hp⟩
  | firstChild | lastChild =>
    obtain ⟨u, hu, h⟩ := ok_of_bind h
    obtain ⟨p, hp, h⟩ := ok_of_bind h
    cases h
    exact .inr ⟨hu, childPoint_eq_ok hp⟩

theorem editInsert_eq_ok {reader : String → Except SyntaxFault SourceTree} {snippet : String}
    {position : InsertPosition}
    (h : editInsert reader tree path snippet position = .ok (edited, changes)) :
    ∃ element, elementAt tree path = .ok element ∧ EditsAt tree path edited := by
  obtain ⟨element, helement, h⟩ := ok_of_bind h
  refine ⟨element, helement, ?_⟩
  obtain ⟨nodes, -, h⟩ := ok_of_bind h
  obtain ⟨⟨t, point⟩, hpoint, h⟩ := ok_of_bind h
  obtain ⟨t', ht', h⟩ := ok_of_bind h
  cases h
  rcases insertionPoint_eq_ok hpoint with ⟨rfl, index, hpath, hle, hle'⟩ | ⟨hplaced, hparent⟩
  · exact .among point.parent index point.index point.index _ hpath hle (Nat.le_refl _) hle' ht'
  · -- opening the element and filling it are one change of the element
    rw [hparent] at ht'
    exact .inPlace _ (placed_spliced hplaced ht')

theorem replaceElement_eq_ok (h : replaceElement tree path element node = .ok (edited, changes)) :
    EditsAt tree path edited := by
  obtain ⟨t, ht, h⟩ := ok_of_map h
  cases h
  exact .inPlace _ ht

theorem editReplace_eq_ok {reader : String → Except SyntaxFault SourceTree} {markup : String}
    (h : editReplace reader tree path markup = .ok (edited, changes)) :
    ∃ element, elementAt tree path = .ok element ∧ EditsAt tree path edited := by
  obtain ⟨element, helement, h⟩ := ok_of_bind h
  split at h
  · cases h
  · exact ⟨element, helement, replaceElement_eq_ok h⟩

theorem editWrap_eq_ok {name : String} {attributes : TextMap}
    (h : editWrap tree path name attributes = .ok (edited, changes)) :
    ∃ element, elementAt tree path = .ok element ∧ EditsAt tree path edited := by
  unfold editWrap at h
  split at h
  · cases h
  obtain ⟨built, -, h⟩ := ok_of_bind h
  obtain ⟨element, helement, h⟩ := ok_of_bind h
  exact ⟨element, helement, replaceElement_eq_ok h⟩

/-- The content goes where the element was among its siblings, or in its place where it has none. -/
theorem editUnwrap_eq_ok (h : editUnwrap tree path = .ok (edited, changes)) :
    ∃ element, elementAt tree path = .ok element ∧ EditsAt tree path edited := by
  obtain ⟨element, helement, h⟩ := ok_of_bind h
  refine ⟨element, helement, ?_⟩
  dsimp only at h
  split at h
  · cases h
  split at h
  · next parent index hslot =>
    obtain ⟨t, ht, h⟩ := ok_of_bind h
    cases h
    exact .among parent index index (index + 1) _ (markupSlot?_eq_some hslot) (Nat.le_refl _)
      (Nat.le_succ _) (Nat.le_refl _) ht
  · split at h
    · split at h
      · exact replaceElement_eq_ok h
      · cases h
    · cases h

/-- **Every operation edits an element, and edits at its path.** -/
theorem editsAt_of_apply {operation : Operation}
    (h : operation.apply tree path config = .ok (edited, changes)) :
    ∃ element, elementAt tree path = .ok element ∧ EditsAt tree path edited := by
  cases operation with
  | text value => exact editText_eq_ok h
  | style change => exact editStyle_eq_ok h
  | setAttribute name value =>
    obtain ⟨element, helement, hplaced⟩ := editAttribute_eq_ok h
    exact ⟨element, helement, .inPlace _ hplaced⟩
  | remove => exact editRemove_eq_ok h
  | insert snippet position => exact editInsert_eq_ok h
  | replace markup => exact editReplace_eq_ok h
  | wrap name attributes => exact editWrap_eq_ok h
  | unwrap => exact editUnwrap_eq_ok h

/-! ## The text after an edit -/

/-- A text with another text in place of its bytes from `first` to `last`. -/
def ChangedWithin (source edited : String) (first last : Nat) : Prop :=
  ∃ front old new back : String, source = front ++ (old ++ back) ∧
    edited = front ++ (new ++ back) ∧ byteSize front.toList = first ∧
    byteSize (front ++ old).toList = last

/-- A node of a tree that was read from a text, between what stands in front of it and behind it. -/
theorem readFrom_split {source : String} (h : tree.ReadFrom source) (hn : tree.get path = some n) :
    source = tree.front path ++ (n.full ++ tree.back path) ∧ ∃ span, n.span = some span ∧
      byteSize (tree.front path ++ n.leading).toList = span.startByte ∧
      byteSize (tree.front path ++ n.full).toList = span.endByte := by
  obtain ⟨language, o, ho, hconvert⟩ := h
  refine ⟨?_, ?_⟩
  · rw [← SourceTree.toSource_of_get hn, toSource_of_convert ho hconvert, String.ofList_toList]
  obtain ⟨span, hspan, hstart, hstop, hle, hbody, hfront, -⟩ := slices_of_get ho hconvert hn
  refine ⟨span, hspan, ?_, ?_⟩
  · rw [hfront, byteSize_slice (isBoundary_zero _) hstart (Nat.zero_le _), Nat.sub_zero]
  · rw [Node.full, ← String.append_assoc, hfront, hbody,
      slice_append (isBoundary_zero _) hstart hstop (Nat.zero_le _) hle,
      byteSize_slice (isBoundary_zero _) hstop (Nat.zero_le _), Nat.sub_zero]

theorem replaceLiteral_eq_ok {found : LiteralMatch} {value : String} {change : Change}
    (h : replaceLiteral tree found value config = .ok (edited, change)) :
    ∃ literal new, tree.get found.path = some literal ∧
      placed tree found.path (inPlaceOf new literal) = .ok edited := by
  unfold replaceLiteral at h
  split at h
  · cases h
  · next literal hl =>
    obtain ⟨t, ht, h⟩ := ok_of_map h
    cases h
    exact ⟨literal, _, hl, ht⟩

/-- **No byte outside the target of an edit changes.** An operation changes the text between the start
of the trivia in front of its element and the end of the element; an edit of a literal that was found
by its text changes the bytes of the literal. -/
theorem apply_local (source : String) (tree : SourceTree) (h : tree.ReadFrom source)
    (config : Config) :
    (∀ (operation : Operation) path edited changes,
      operation.apply tree path config = .ok (edited, changes) →
        ∃ target span first, tree.get path = some target ∧ target.kind.isElement = true ∧
          target.span = some span ∧
          first + byteSize target.leading.toList = span.startByte ∧
          ChangedWithin source edited.toSource first span.endByte) ∧
    (∀ query found value edited change, findLiteral? tree query config = some found →
      replaceLiteral tree found value config = .ok (edited, change) →
        ∃ literal span, tree.get found.path = some literal ∧ literal.span = some span ∧
          ChangedWithin source edited.toSource span.startByte span.endByte) := by
  constructor
  · intro operation path edited changes happly
    obtain ⟨target, helement, hedit⟩ := editsAt_of_apply happly
    obtain ⟨htarget, hkind⟩ := elementAt_eq_ok helement
    obtain ⟨hsource, span, hspan, hstart, hstop⟩ := readFrom_split h htarget
    obtain ⟨new, hnew⟩ := toSource_of_editsAt hedit htarget
    refine ⟨target, span, byteSize (tree.front path).toList, htarget, hkind, hspan, ?_,
      tree.front path, target.full, new, tree.back path, hsource, hnew, rfl, hstop⟩
    rw [← hstart, String.toList_append, byteSize_append]
  · intro query found value edited change _ hreplace
    obtain ⟨literal, new, hliteral, hplaced⟩ := replaceLiteral_eq_ok hreplace
    obtain ⟨hsource, span, hspan, hstart, hstop⟩ := readFrom_split h hliteral
    obtain ⟨root, hu, rfl⟩ := placed_eq_ok hplaced
    obtain ⟨_, _, _, hnew, hedited⟩ := SourceTree.toSource_of_update? hu
    cases hnew
    -- the new literal keeps the trivia of the old one
    refine ⟨literal, span, hliteral, hspan, tree.front found.path ++ literal.leading, literal.body,
      (inPlaceOf new literal).body, tree.back found.path, ?_, ?_, hstart, ?_⟩
    · rw [hsource, Node.full]
      simp only [String.append_assoc]
    · rw [hedited, Node.full]
      simp only [inPlaceOf, String.append_assoc]
    · rw [String.append_assoc, ← Node.full, hstop]

/-- The tree of `listText`. -/
def listTree : SourceTree := .sketch listText listNode

theorem readFrom_list : listTree.ReadFrom listText := readFrom_sketch rfl (by decide)

theorem apply_local_list :
    listTree.ReadFrom listText ∧
      (∃ edited changes,
        (Operation.wrap "p" TextMap.empty).apply listTree [0, 3] {} = .ok (edited, changes) ∧
        ∃ target span first, listTree.get [0, 3] = some target ∧ target.kind.isElement = true ∧
          target.span = some span ∧
          first + byteSize target.leading.toList = span.startByte ∧
          ChangedWithin listText edited.toSource first span.endByte) ∧
      ∃ found edited change, findLiteral? listTree "é" {} = some found ∧
        replaceLiteral listTree found "ö" {} = .ok (edited, change) ∧
        ∃ literal span, listTree.get found.path = some literal ∧ literal.span = some span ∧
          ChangedWithin listText edited.toSource span.startByte span.endByte := by
  obtain ⟨hoperations, hliterals⟩ := apply_local listText listTree readFrom_list {}
  have hfound : findLiteral? listTree "é" {} = some ⟨[0, 1], "é", true, true⟩ := by
    decide +kernel
  exact ⟨readFrom_list, ⟨_, _, rfl, hoperations (.wrap "p" TextMap.empty) [0, 3] _ _ rfl⟩,
    _, _, _, hfound, rfl, hliterals "é" _ "ö" _ _ hfound rfl⟩

end MarkupEdit.Edit
