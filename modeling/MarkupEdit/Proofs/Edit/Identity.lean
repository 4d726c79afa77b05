import MarkupEdit.Edit.Target
import MarkupEdit.Proofs.Edit.Listing

/-!
# Names and ids of elements

An element is told from others by its name and its id. Both are read off its opening tag, and a change
inside a tree leaves those of all other elements alone if, from outside, the changed node looks as it
did before.

* `Node.identities`: the names and the ids of the elements in a node, in the order of the document.
* `listElements_identities`: they are what a listing shows, unless a node is too deep.
* `Node.Parted`, `Node.Orderly`: what the grammar says of a node.
* `Face`: what the nodes around a node can see of it.
* `Alike`: a node that has the face and the elements of another one.
* `alike_update?`: **a change inside a tree that puts such a node in the place of another one keeps
  the elements of the tree.**
-/

namespace MarkupEdit.Edit

open MarkupEdit.Text MarkupEdit.Tree

/-- The name of an element, and its id. -/
abbrev Identity := String × Option String

end MarkupEdit.Edit

namespace MarkupEdit.Tree.Node

open MarkupEdit.Text MarkupEdit.Edit

/-- The name and the id in an opening tag. -/
def signature? (id : String) (opening : Node) : Option Identity :=
  (opening.childByField? "name").map fun name =>
    (name.body, (opening.children.find? (isAttribute id)).bind fun held =>
      (attributeContent held).static?)

/-- The name and the id of an element. -/
def identity? (id : String) (n : Node) : Option Identity := n.opening?.bind (signature? id)

mutual

/-- The names and the ids of the elements in a node, in the order of the document. -/
def identities (id : String) : Node → List Identity
  | ⟨kind, field, span, leading, text, children, trailing⟩ =>
    (identity? id ⟨kind, field, span, leading, text, children, trailing⟩).toList ++
      identitiesAll id children

def identitiesAll (id : String) : List Node → List Identity
  | [] => []
  | n :: rest => identities id n ++ identitiesAll id rest

end

variable {id : String} {n : Node} {l r : List Node}

theorem identities_eq (id : String) (n : Node) :
    n.identities id = (n.identity? id).toList ++ identitiesAll id n.children := by
  cases n
  rfl

theorem identitiesAll_eq_flatMap (id : String) (l : List Node) :
    identitiesAll id l = l.flatMap (identities id) := by
  induction l with
  | nil => rfl
  | cons n l ih => rw [identitiesAll, List.flatMap_cons, ih]

theorem identitiesAll_append :
    identitiesAll id (l ++ r) = identitiesAll id l ++ identitiesAll id r := by
  simp only [identitiesAll_eq_flatMap, List.flatMap_append]

/-! ## What a listing shows -/

mutual

theorem filterMap_preorder (id : String) (n : Node) (p : Place) :
    (preorder n p).filterMap (fun found => found.node.identity? id) = n.identities id := by
  rw [preorder_eq, identities_eq, List.filterMap_cons, filterMap_preorderAll id n p 0 n.children]
  cases n.identity? id <;> rfl
termination_by 2 * n.count
decreasing_by
  have := n.count_eq
  omega

theorem filterMap_preorderAll (id : String) (n : Node) (p : Place) (index : Nat)
    (children : List Node) :
    (preorderAll n p index children).filterMap (fun found => found.node.identity? id) =
      identitiesAll id children := by
  match children with
  | [] => rfl
  | child :: rest =>
    rw [preorderAll, identitiesAll, List.filterMap_append, filterMap_preorder id child,
      filterMap_preorderAll id n p (index + 1) rest]
termination_by 2 * Node.countAll children + 1
decreasing_by
  all_goals
    have := child.count_eq
    simp only [Node.countAll]
    omega

end

theorem isNamedElement_of_identity? (h : (n.identity? id).isSome = true) :
    n.isNamedElement = true := by
  obtain ⟨identity, h⟩ := Option.isSome_iff_exists.mp h
  obtain ⟨opening, hopening, h⟩ := Option.bind_eq_some_iff.mp h
  obtain ⟨name, hname, -⟩ := Option.map_eq_some_iff.mp h
  have hkind : n.kind.isElement = true := by
    unfold opening? at hopening
    split at hopening
    · next hk => rw [hk]; rfl
    · next hk => rw [hk]; rfl
    · cases hopening
  rw [isNamedElement, hkind, elementName?, hopening, Option.bind_some, hname]
  rfl

/-- The name and the id in the description of an element. -/
theorem map_ofFound? (config : Config) (found : Found) :
    (Element.ofFound? config found).map (fun element => (element.name, element.stableId)) =
      found.node.identity? config.idAttribute := by
  rw [Element.ofFound?, elementName?, identity?, Option.map_map]
  cases hopening : found.node.opening? with
  | none => rfl
  | some opening =>
    have hid : ((attributeOf? found.node config.idAttribute).bind AttributeContent.static?) =
        (opening.children.find? (isAttribute config.idAttribute)).bind fun held =>
          (attributeContent held).static? := by
      rw [attributeOf?, hopening, Option.bind_some]
      exact Option.bind_map
    rw [Option.bind_some, Option.bind_some, signature?, Option.map_map]
    refine congrArg (Option.map · (opening.childByField? "name")) (funext fun name => ?_)
    exact congrArg (Prod.mk name.body) hid

end MarkupEdit.Tree.Node

namespace MarkupEdit.Edit

open MarkupEdit.Text MarkupEdit.Tree

/-- **A listing shows all names and ids**, unless a node is too deep. -/
theorem listElements_identities {tree : SourceTree} {config : Config}
    (h : tree.root.height ≤ config.maxDepth) :
    (listElements tree config).map (fun element => (element.name, element.stableId)) =
      tree.root.identities config.idAttribute := by
  -- the walk ends at no node
  have hall : (preorder tree.root Place.root).takeWhile (Found.isWithin config.maxDepth) =
      preorder tree.root Place.root := by
    have happend : (preorder tree.root Place.root ++ []).takeWhile (Found.isWithin config.maxDepth) =
        preorder tree.root Place.root ++ [].takeWhile (Found.isWithin config.maxDepth) :=
      List.takeWhile_append_of_pos fun found hfound => isWithin_of_height h hfound
    simpa only [List.append_nil, List.takeWhile_nil] using happend
  rw [listElements_eq, hall, List.map_filterMap, List.filterMap_filter,
    ← Node.filterMap_preorder config.idAttribute tree.root Place.root]
  congr 1
  funext found
  -- a listing leaves out what has no name, and that has no identity either
  rw [Node.map_ofFound?]
  split
  · rfl
  · next hnamed =>
    cases hidentity : found.node.identity? config.idAttribute with
    | none => rfl
    | some identity =>
      exact absurd (Node.isNamedElement_of_identity? (by rw [hidentity]; rfl)) hnamed

end MarkupEdit.Edit

namespace MarkupEdit.Tree.Node

open MarkupEdit.Text MarkupEdit.Edit

/-! ## What the grammar says of a node -/

mutual

/-- Whether a node holds neither elements nor literals. -/
def isPlain : Node → Bool
  | ⟨kind, _, _, _, _, children, _⟩ =>
    !kind.isElement && kind != .string && kind != .templateString && isPlainAll children

def isPlainAll : List Node → Bool
  | [] => true
  | n :: rest => isPlain n && isPlainAll rest

end

/-- The part of an attribute in front of the equals sign, its name left out. -/
def beforeEquals (n : Node) : List Node := n.children.tail.takeWhile (fun c => !c.isToken "=")

/-- The part of an attribute behind the equals sign. -/
def behindEquals (n : Node) : List Node :=
  (n.children.dropWhile (fun c => !c.isToken "=")).drop 1

/-- What the grammar says of the parts of a tag, an attribute and a pair. -/
structure Parted (n : Node) : Prop where
  /-- The name of a tag is a word, or words with dots or a colon between them. -/
  name : n.kind.isOpening = true → ∀ c ∈ n.children, c.field = some "name" →
    c.isPlain = true ∧ c.kind ∈ [.identifier, .memberExpression, .jsxNamespaceName]
  /-- An attribute starts with its name, which is a word, or two with a colon between them. -/
  head : n.kind = .jsxAttribute → ∀ c ∈ n.children.head?, c.isPlain = true
  /-- Apart from tokens and comments an attribute has nothing else in front of its equals sign. -/
  before : n.kind = .jsxAttribute → n.beforeEquals.filter isNamed = []
  /-- Behind its equals sign it has a value. -/
  value : n.kind = .jsxAttribute → (n.behindEquals.filter isNamed).length ≤ 1
  /-- A pair has a key and a value, apart from tokens and comments. -/
  pair : n.kind = .pair → ∀ c ∈ n.namedChildren, c.field = some "key" ∨ c.field = some "value"
  key : n.kind = .pair → (n.children.filter (·.field == some "key")).length ≤ 1
  entry : n.kind = .pair → (n.children.filter (·.field == some "value")).length ≤ 1

/-- A node whose parts are as the grammar says, with a text only where there are none. -/
structure Orderly (n : Node) : Prop extends Parted n where
  /-- Nothing is inside tokens, texts, comments, numbers, and whatever has a text itself. -/
  leaf : n.kind = .token ∨ n.kind.isVerbatim = true ∨ n.kind = .other "number" ∨
    n.text.isSome = true → n.children = []
  /-- A tag has no text of its own. -/
  tag : n.kind.isOpening = true → n.text = none

/-- What the grammar says of the parts of a node can be computed. -/
instance (n : Node) : Decidable n.Parted :=
  decidable_of_iff
    ((n.kind.isOpening = true → ∀ c ∈ n.children, c.field = some "name" →
        c.isPlain = true ∧ c.kind ∈ [.identifier, .memberExpression, .jsxNamespaceName]) ∧
      (n.kind = .jsxAttribute → ∀ c ∈ n.children.head?, c.isPlain = true) ∧
      (n.kind = .jsxAttribute → (n.beforeEquals.filter isNamed).length = 0) ∧
      (n.kind = .jsxAttribute → (n.behindEquals.filter isNamed).length ≤ 1) ∧
      (n.kind = .pair →
        ∀ c ∈ n.namedChildren, c.field = some "key" ∨ c.field = some "value") ∧
      (n.kind = .pair → (n.children.filter (·.field == some "key")).length ≤ 1) ∧
      (n.kind = .pair → (n.children.filter (·.field == some "value")).length ≤ 1))
    ⟨fun ⟨h₁, h₂, h₃, h₄, h₅, h₆, h₇⟩ =>
        ⟨h₁, h₂, fun h => List.length_eq_zero_iff.mp (h₃ h), h₄, h₅, h₆, h₇⟩,
      fun h => ⟨h.name, h.head, fun h' => List.length_eq_zero_iff.mpr (h.before h'), h.value,
        h.pair, h.key, h.entry⟩⟩

instance (n : Node) : Decidable n.Orderly :=
  decidable_of_iff
    (n.Parted ∧
      (n.kind = .token ∨ n.kind.isVerbatim = true ∨ n.kind = .other "number" ∨
        n.text.isSome = true → n.children.length = 0) ∧
      (n.kind.isOpening = true → n.text = none))
    ⟨fun ⟨h₁, h₂, h₃⟩ => ⟨h₁, fun h => List.length_eq_zero_iff.mp (h₂ h), h₃⟩,
      fun h => ⟨h.toParted, fun h' => List.length_eq_zero_iff.mpr (h.leaf h'), h.tag⟩⟩

/-- The grammar is right about a node and all nodes in it. -/
abbrev OrderlyBelow (n : Node) : Prop := n.Throughout Orderly

variable {id : String} {values : Bool} {n m c : Node} {l children : List Node}

theorem isAttribute_iff {name : String} :
    n.isAttribute name = true ↔ n.kind = .jsxAttribute ∧ n.attributeName? = some name := by
  rw [isAttribute, Bool.and_eq_true, beq_iff_eq, beq_iff_eq]

theorem isPlain_eq (n : Node) :
    n.isPlain = (!n.kind.isElement && n.kind != .string && n.kind != .templateString &&
      n.children.all isPlain) := by
  have hall : ∀ l : List Node, isPlainAll l = l.all isPlain := by
    intro l
    induction l with
    | nil => rfl
    | cons n l ih => rw [isPlainAll, List.all_cons, ih]
  cases n
  rw [isPlain, hall]

theorem withChildren_self (n : Node) : n.withChildren n.children = n := by
  cases n
  rfl

theorem isPlain_of_mem (h : n.isPlain = true) (hc : c ∈ n.children) : c.isPlain = true := by
  rw [isPlain_eq, Bool.and_eq_true] at h
  exact List.all_eq_true.mp h.2 c hc

end MarkupEdit.Tree.Node

/-! ## What the nodes around a node see -/

namespace MarkupEdit.Edit

open MarkupEdit.Text MarkupEdit.Tree

/-- The text that an attribute has if a node is its value. -/
def valueText? (n : Node) : Option String :=
  match n.kind with
  | .string => some (String.ofList (decodeReferences (withoutEnds (n.text.getD "").toList)))
  | .jsxExpression => bracedText? n
  | _ => none

/-- What the nodes around a node can see of it when they look for names and ids. -/
structure Face where
  field : Option String
  isNamed : Bool
  isEquals : Bool
  /-- The name and the text of an attribute. -/
  attribute? : Option (Option String × Option String)
  /-- The name and the id in an opening tag. -/
  tag? : Option (Option Identity)
  /-- The whole node, if there is no element in it and no literal. -/
  plain? : Option Node
  /-- The text of a literal. -/
  literal? : Option String
  /-- The text of an attribute that has the node as its value. -/
  value? : Option String

/-- The face of a node. The texts of literals can be left out. -/
def face (id : String) (values : Bool) (n : Node) : Face where
  field := n.field
  isNamed := n.isNamed
  isEquals := n.isToken "="
  attribute? :=
    if n.kind = .jsxAttribute then some (n.attributeName?, (attributeContent n).static?) else none
  tag? := if n.kind = .jsxOpeningElement then some (n.signature? id) else none
  plain? := if n.isPlain then some n else none
  literal? := if values then n.staticValue? else none
  value? := if values then valueText? n else none

namespace Face

/-- Whether a child of a tag is its name. -/
def isName (f : Face) : Bool := f.field == some "name"

/-- Whether a child of a tag is the attribute with the id. -/
def isId (id : String) (f : Face) : Bool := f.attribute?.map Prod.fst == some (some id)

/-- The name and the id in a tag with children that look so. -/
def signature? (id : String) (faces : List Face) : Option Identity :=
  ((faces.find? isName).bind plain?).map fun name =>
    (name.body, (faces.find? (isId id)).bind fun f => f.attribute?.bind Prod.snd)

/-- The name and the id of an element with a tag of its own among children that look so. -/
def opening? (faces : List Face) : Option Identity :=
  (faces.find? (·.tag?.isSome)).bind fun f => f.tag?.join

/-- The name and the text of an attribute with children that look so. -/
def attributeName? (faces : List Face) : Option String := (faces.head?.bind plain?).map Node.body

def attributeText? (faces : List Face) : Option String :=
  (((faces.dropWhile (fun f => !f.isEquals)).drop 1).head?).bind value?

/-- The text between braces around children that look so. -/
def bracedText? (faces : List Face) : Option String :=
  match faces.filter isNamed with
  | [literal] => literal.literal?
  | _ => none

/-- Names of tags show as they are. -/
def Legible (faces : List Face) : Prop := ∀ f ∈ faces, f.isName = true → f.plain?.isSome = true

end Face

variable {id : String} {values : Bool} {n m c : Node} {l children : List Node}

theorem face_isName (c : Node) : (face id values c).isName = (c.field == some "name") := rfl

theorem plain?_face (h : c.isPlain = true) : (face id values c).plain? = some c := if_pos h

theorem isPlain_of_face (h : (face id values c).plain?.isSome = true) : c.isPlain = true := by
  cases hc : c.isPlain with
  | true => rfl
  | false =>
    have hnone : (face id values c).plain? = none :=
      if_neg (by rw [hc]; exact Bool.false_ne_true)
    rw [hnone] at h
    cases h

theorem face_isId (id : String) (values : Bool) (c : Node) :
    (face id values c).isId id = c.isAttribute id := by
  rw [Face.isId, face, Node.isAttribute]
  by_cases hkind : c.kind = .jsxAttribute
  · rw [if_pos hkind, hkind, beq_self_eq_true, Bool.true_and, Option.map_some]
    cases c.attributeName? <;> rfl
  · rw [if_neg hkind, beq_false_of_ne hkind, Bool.false_and]
    rfl

/-- The first of some nodes with a property that shows. -/
theorem find?_face {p : Face → Bool} {q : Node → Bool} (h : ∀ c, p (face id values c) = q c) :
    (l.map (face id values)).find? p = (l.find? q).map (face id values) := by
  rw [List.find?_map]
  congr 2
  funext c
  exact h c

/-- The name and the id in a tag can be seen from its children. -/
theorem signature?_eq (id : String) (values : Bool)
    (h : Face.Legible (n.children.map (face id values))) :
    n.signature? id = Face.signature? id (n.children.map (face id values)) := by
  have hname : (((n.children.map (face id values)).find? Face.isName).bind Face.plain?) =
      n.childByField? "name" := by
    rw [find?_face face_isName, Node.childByField?]
    cases hfind : n.children.find? (·.field == some "name") with
    | none => rfl
    | some c =>
      -- the name of a tag is read off its text, so it has to show whole
      have hfield := List.find?_some hfind
      have hplain := h _ (List.mem_map_of_mem (List.mem_of_find?_eq_some hfind)) hfield
      exact plain?_face (isPlain_of_face hplain)
  have hid : (((n.children.map (face id values)).find? (Face.isId id)).bind
      fun f => f.attribute?.bind Prod.snd) =
      (n.children.find? (Node.isAttribute id)).bind fun held => (attributeContent held).static? := by
    rw [find?_face (face_isId id values)]
    cases hfind : n.children.find? (Node.isAttribute id) with
    | none => rfl
    | some c =>
      have hkind : c.kind = .jsxAttribute := (Node.isAttribute_iff.mp (List.find?_some hfind)).1
      rw [Option.map_some, Option.bind_some, Option.bind_some, face, if_pos hkind]
      rfl
  rw [Node.signature?, Face.signature?, hname, hid]

/-- The name and the id of an element can be seen from its children. -/
theorem identity?_eq (id : String) (values : Bool) (h : n.kind = .jsxSelfClosingElement →
      Face.Legible (n.children.map (face id values))) :
    n.identity? id =
      match n.kind with
      | .jsxSelfClosingElement => Face.signature? id (n.children.map (face id values))
      | .jsxElement => Face.opening? (n.children.map (face id values))
      | _ => none := by
  rw [Node.identity?, Node.opening?]
  cases hkind : n.kind with
  | jsxSelfClosingElement =>
    show (some n).bind (Node.signature? id) = Face.signature? id (n.children.map (face id values))
    rw [Option.bind_some, signature?_eq id values (h hkind)]
  | jsxElement =>
    show (n.childOfKind? .jsxOpeningElement).bind (Node.signature? id) =
      Face.opening? (n.children.map (face id values))
    have htag : ∀ c, (face id values c).tag?.isSome = (c.kind == .jsxOpeningElement) := by
      intro c
      rw [face]
      by_cases hopening : c.kind = .jsxOpeningElement
      · rw [if_pos hopening, hopening]
        rfl
      · rw [if_neg hopening, beq_false_of_ne hopening]
        rfl
    rw [Face.opening?, find?_face htag, Node.childOfKind?]
    cases hfind : n.children.find? (·.kind == .jsxOpeningElement) with
    | none => rfl
    | some c =>
      have hfound := List.find?_some hfind
      have hopening : c.kind = .jsxOpeningElement := beq_iff_eq.mp hfound
      rw [Option.map_some, Option.bind_some, Option.bind_some, face, if_pos hopening]
      rfl
  | _ => rfl

/-- The text of an attribute is that of its value. -/
theorem static?_attributeContent (n : Node) :
    (attributeContent n).static? = n.attributeValueNode?.bind valueText? := by
  rw [attributeContent]
  cases n.attributeValueNode? with
  | none => rfl
  | some value =>
    rw [Option.bind_some, valueText?]
    dsimp only
    cases value.kind with
    | string => rfl
    | jsxExpression => cases bracedText? value <;> rfl
    | _ => rfl

/-- The name of an attribute can be seen from its children. -/
theorem attributeName?_eq (id : String) (values : Bool)
    (h : ∀ f ∈ (n.children.map (face id values)).head?, f.plain?.isSome = true) :
    n.attributeName? = Face.attributeName? (n.children.map (face id values)) := by
  rw [Node.attributeName?, Face.attributeName?, List.head?_map] at *
  cases hhead : n.children.head? with
  | none => rfl
  | some c =>
    have hplain := h (face id values c) (by rw [hhead]; rfl)
    rw [Option.map_some, Option.map_some, Option.bind_some, plain?_face (isPlain_of_face hplain)]
    rfl

theorem map_beforeEquals (id : String) (values : Bool) (n : Node) :
    n.beforeEquals.map (face id values) =
      (n.children.map (face id values)).tail.takeWhile (fun f => !f.isEquals) := by
  rw [← List.map_tail, List.takeWhile_map]
  rfl

theorem map_behindEquals (id : String) (values : Bool) (n : Node) :
    n.behindEquals.map (face id values) =
      ((n.children.map (face id values)).dropWhile (fun f => !f.isEquals)).drop 1 := by
  rw [Node.behindEquals, List.map_drop, List.dropWhile_map]
  rfl

/-- The text of an attribute can be seen from its children. -/
theorem attributeText?_eq (id : String) (n : Node) :
    (attributeContent n).static? = Face.attributeText? (n.children.map (face id true)) := by
  have hvalue : ((((n.children.map (face id true)).dropWhile (fun f => !f.isEquals)).drop 1).head?)
      = n.attributeValueNode?.map (face id true) := by
    rw [← map_behindEquals, List.head?_map]
    rfl
  rw [static?_attributeContent, Face.attributeText?, hvalue]
  cases n.attributeValueNode? <;> rfl

/-- The text between braces can be seen from what stands between them. -/
theorem bracedText?_eq (id : String) (n : Node) :
    bracedText? n = Face.bracedText? (n.children.map (face id true)) := by
  have hnamed : (n.children.map (face id true)).filter Face.isNamed =
      n.namedChildren.map (face id true) := List.filter_map
  rw [bracedText?, Face.bracedText?, hnamed]
  rcases n.namedChildren with _ | ⟨c, _ | ⟨d, l⟩⟩ <;> rfl

theorem legible_of_orderly (h : n.Orderly) (hkind : n.kind.isOpening = true) :
    Face.Legible (n.children.map (face id values)) := by
  intro f hf hname
  obtain ⟨c, hc, rfl⟩ := List.mem_map.mp hf
  rw [face_isName, beq_iff_eq] at hname
  rw [plain?_face (h.name hkind c hc hname).1]
  rfl

/-- Nodes that show whole are told by their faces. -/
theorem eq_of_map_face {l' : List Node} (h : l'.map (face id values) = l.map (face id values))
    (hplain : ∀ c ∈ l, c.isPlain = true) : l' = l := by
  induction l generalizing l' with
  | nil => exact List.map_eq_nil_iff.mp h
  | cons c l ih =>
    obtain ⟨c', l', rfl, hc, hl⟩ := List.map_eq_cons_iff.mp h
    have hc' := congrArg Face.plain? hc
    rw [plain?_face (hplain c List.mem_cons_self)] at hc'
    have hsome : (face id values c').plain?.isSome = true := by rw [hc']; rfl
    rw [plain?_face (isPlain_of_face hsome), Option.some.injEq] at hc'
    rw [hc', ih hl fun d hd => hplain d (List.mem_cons_of_mem _ hd)]

/-! ## Changes of children -/

/-- **A node looks the same with children that look the same.** -/
theorem face_withChildren (horderly : n.Orderly)
    (hvalues : values = true ∨ n.kind ≠ .jsxAttribute)
    (h : children.map (face id values) = n.children.map (face id values)) :
    face id values (n.withChildren children) = face id values n := by
  have hattribute : n.kind = .jsxAttribute →
      ((n.withChildren children).attributeName?, (attributeContent (n.withChildren children)).static?)
        = (n.attributeName?, (attributeContent n).static?) := by
    intro hkind
    have hhead : ∀ f ∈ (n.children.map (face id values)).head?, f.plain?.isSome = true := by
      intro f hf
      rw [List.head?_map] at hf
      obtain ⟨c, hc, rfl⟩ := Option.map_eq_some_iff.mp hf
      rw [plain?_face (horderly.head hkind c hc)]
      rfl
    -- the text of an attribute may be that of a literal in it
    obtain rfl := hvalues.resolve_right (fun hne => hne hkind)
    rw [attributeName?_eq id true hhead, attributeName?_eq id true (by rwa [← h] at hhead),
      attributeText?_eq id n, attributeText?_eq id (n.withChildren children), Node.withChildren, h]
  have htag : n.kind = .jsxOpeningElement →
      (n.withChildren children).signature? id = n.signature? id := by
    intro hkind
    have hlegible : Face.Legible (n.children.map (face id values)) :=
      legible_of_orderly horderly (by rw [hkind]; rfl)
    rw [signature?_eq id values hlegible, signature?_eq id values (by rwa [← h] at hlegible),
      Node.withChildren, h]
  have hplain : (if (n.withChildren children).isPlain then some (n.withChildren children) else none)
      = if n.isPlain then some n else none := by
    -- if one of the two shows whole, so do its children, and the other has the same
    by_cases hn : n.isPlain = true
    · obtain rfl := eq_of_map_face h fun c hc => Node.isPlain_of_mem hn hc
      rw [Node.withChildren_self]
    · rw [if_neg hn, if_neg]
      intro hn'
      obtain rfl := eq_of_map_face h.symm fun c hc => Node.isPlain_of_mem hn' hc
      exact hn (by rwa [Node.withChildren_self] at hn')
  have hvalue : (if values then valueText? (n.withChildren children) else none) =
      if values then valueText? n else none := by
    cases values with
    | false => rfl
    | true =>
      rw [if_pos rfl, if_pos rfl, valueText?, valueText?, bracedText?_eq id n,
        bracedText?_eq id (n.withChildren children), Node.withChildren, h]
  rw [face, face, hplain, hvalue]
  congr 1
  · by_cases hkind : n.kind = .jsxAttribute
    · rw [if_pos hkind, ← hattribute hkind]
      exact if_pos hkind
    · rw [if_neg hkind]
      exact if_neg hkind
  · by_cases hkind : n.kind = .jsxOpeningElement
    · rw [if_pos hkind, ← htag hkind]
      exact if_pos hkind
    · rw [if_neg hkind]
      exact if_neg hkind

/-- What is counted among nodes is counted among their faces. -/
theorem length_filter_face {r : List Node} (p : Face → Bool)
    (h : l.map (face id values) = r.map (face id values)) :
    (l.filter (fun c => p (face id values c))).length =
      (r.filter (fun c => p (face id values c))).length := by
  have hfilter : ∀ k : List Node, (k.filter (fun c => p (face id values c))).length =
      ((k.map (face id values)).filter p).length := by
    intro k
    rw [List.filter_map, List.length_map]
    rfl
  rw [hfilter, h, ← hfilter]

/-- **The grammar is right about a node with children that look the same.** -/
theorem parted_withChildren (hparted : n.Parted)
    (h : children.map (face id values) = n.children.map (face id values)) :
    (n.withChildren children).Parted := by
  have hmem : ∀ c ∈ children, ∃ d ∈ n.children, face id values d = face id values c := by
    intro c hc
    have hc' := List.mem_map_of_mem (f := face id values) hc
    rw [h] at hc'
    exact List.mem_map.mp hc'
  have hbefore : (n.withChildren children).beforeEquals.map (face id values) =
      n.beforeEquals.map (face id values) := by
    rw [map_beforeEquals, map_beforeEquals, ← h]
    rfl
  have hbehind : (n.withChildren children).behindEquals.map (face id values) =
      n.behindEquals.map (face id values) := by
    rw [map_behindEquals, map_behindEquals, ← h]
    rfl
  constructor
  case name =>
    -- the old name shows whole, so the new one is the same node
    intro hkind c hc hfield
    obtain ⟨d, hd, hface⟩ := hmem c hc
    have hname := hparted.name hkind d hd ((congrArg Face.field hface).trans hfield)
    have hplain := congrArg Face.plain? hface
    rw [plain?_face hname.1] at hplain
    have hc' : c.isPlain = true := isPlain_of_face (by rw [← hplain]; rfl)
    rw [plain?_face hc', Option.some.injEq] at hplain
    exact hplain ▸ hname
  case head =>
    intro hkind c hc
    have hhead := congrArg List.head? h
    have hc : children.head? = some c := hc
    rw [List.head?_map, List.head?_map, hc, Option.map_some] at hhead
    obtain ⟨d, hd, hface⟩ := Option.map_eq_some_iff.mp hhead.symm
    have hplain := congrArg Face.plain? hface
    rw [plain?_face (hparted.head hkind d hd)] at hplain
    exact isPlain_of_face (by rw [← hplain]; rfl)
  case before =>
    -- what the grammar counts among children is counted among their faces
    intro hkind
    have hnone := length_filter_face Face.isNamed hbefore
    have hold : n.beforeEquals.filter (fun c => (face id values c).isNamed) = [] :=
      hparted.before hkind
    rw [hold] at hnone
    exact List.length_eq_zero_iff.mp hnone
  case value =>
    intro hkind
    exact Nat.le_trans (Nat.le_of_eq (length_filter_face Face.isNamed hbehind))
      (hparted.value hkind)
  case pair =>
    intro hkind c hc
    obtain ⟨hc, hnamed⟩ := List.mem_filter.mp hc
    obtain ⟨d, hd, hface⟩ := hmem c hc
    have hfield := hparted.pair hkind d
      (List.mem_filter.mpr ⟨hd, (congrArg Face.isNamed hface).trans hnamed⟩)
    have hsame : d.field = c.field := congrArg Face.field hface
    rwa [hsame] at hfield
  case key =>
    intro hkind
    exact Nat.le_trans (Nat.le_of_eq (length_filter_face (fun f => f.field == some "key") h))
      (hparted.key hkind)
  case entry =>
    intro hkind
    exact Nat.le_trans (Nat.le_of_eq (length_filter_face (fun f => f.field == some "value") h))
      (hparted.entry hkind)

theorem orderly_withChildren (horderly : n.Orderly)
    (h : children.map (face id values) = n.children.map (face id values)) :
    (n.withChildren children).Orderly := by
  refine ⟨parted_withChildren horderly.toParted h, fun hkind => ?_, horderly.tag⟩
  rw [horderly.leaf hkind, List.map_nil] at h
  exact List.map_eq_nil_iff.mp h

/-- A node looks as another one does, and has the same elements in it. The grammar is as right about
it as about the other one. -/
structure Alike (id : String) (values : Bool) (m n : Node) : Prop where
  face : face id values m = face id values n
  identities : m.identities id = n.identities id
  orderly : n.OrderlyBelow → m.OrderlyBelow

theorem Alike.refl (id : String) (values : Bool) (n : Node) : Alike id values n n :=
  ⟨rfl, rfl, fun h => h⟩

theorem identity?_withChildren (horderly : n.Orderly)
    (h : children.map (face id values) = n.children.map (face id values)) :
    (n.withChildren children).identity? id = n.identity? id := by
  have hlegible : n.kind = .jsxSelfClosingElement →
      Face.Legible (n.children.map (face id values)) := fun hkind =>
    legible_of_orderly horderly (by rw [hkind]; rfl)
  rw [identity?_eq id values hlegible, identity?_eq id values (by rwa [← h] at hlegible),
    Node.withChildren, h]

/-- One of some nodes is changed in a way that a function does not see. -/
theorem map_set_of_eq {α β : Type} {f : α → β} {l : List α} {i : Nat} {a b : α}
    (h : l[i]? = some a) (hf : f b = f a) : (l.set i b).map f = l.map f := by
  obtain ⟨hi, rfl⟩ := List.getElem?_eq_some_iff.mp h
  rw [List.map_set, hf, ← List.getElem_map f (h := by rwa [List.length_map]),
    List.set_getElem_self]

theorem alike_set {i : Nat} {c' : Node} (horderly : n.Orderly)
    (hvalues : values = true ∨ n.kind ≠ .jsxAttribute) (hc : n.children[i]? = some c)
    (h : Alike id values c' c) :
    Alike id values (n.withChildren (n.children.set i c')) n := by
  have hfaces := map_set_of_eq hc h.face
  refine ⟨face_withChildren horderly hvalues hfaces, ?_, fun hbelow => ?_⟩
  · rw [Node.identities_eq, Node.identities_eq id n, identity?_withChildren horderly hfaces,
      Node.identitiesAll_eq_flatMap, Node.identitiesAll_eq_flatMap, List.flatMap_def,
      List.flatMap_def]
    congr 2
    exact map_set_of_eq hc h.identities
  · refine .intro (orderly_withChildren horderly hfaces) fun d hd => ?_
    rcases List.mem_or_eq_of_mem_set hd with hd | rfl
    · exact hbelow.child hd
    · exact h.orderly (hbelow.child (List.mem_of_getElem? hc))

/-- **A change inside a tree that keeps the face and the elements of a node keeps those of the tree**,
if it is not inside an attribute or the texts of literals stay. -/
theorem alike_update? {f : Node → Option Node} {path : Path} {n' : Node}
    (horderly : n.OrderlyBelow) (hvalues : values = true ∨ ∀ k ∈ n.along path, k.kind ≠ .jsxAttribute)
    (hf : ∀ m m', n.get path = some m → f m = some m' → Alike id values m' m)
    (h : n.update? f path = some n') : Alike id values n' n := by
  -- down the path: a node with a child that is like the old one is like the old node
  induction path generalizing n n' with
  | nil => exact hf n n' rfl h
  | cons i path ih =>
    obtain ⟨c, c', hc, hu, rfl⟩ := Node.update?_cons_eq_some h
    have hchild : Alike id values c' c := by
      refine ih (horderly.child (List.mem_of_getElem? hc)) ?_ (fun m m' hm => ?_) hu
      · refine hvalues.imp_right fun havoid k hk => havoid k ?_
        rw [Node.along, hc]
        exact List.mem_cons_of_mem _ hk
      · exact hf m m' (by rw [Node.get_cons hc, hm])
    refine alike_set horderly.self (hvalues.imp_right fun havoid => havoid n ?_) hc hchild
    rw [Node.along]
    exact List.mem_cons_self

end MarkupEdit.Edit
