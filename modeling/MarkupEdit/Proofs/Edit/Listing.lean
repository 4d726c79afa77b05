import MarkupEdit.Edit.Engine
import MarkupEdit.Proofs.Tree.Cache
import MarkupEdit.Proofs.Tree.Conversion
import MarkupEdit.Proofs.Tree.Preorder

/-!
# The listing of elements

Elements are listed by a walk, and a walk ends at the first node that is too deep. So a listing is
complete up to that node, and has nothing behind it.

* `listElements_eq`: what is listed, as a list.
* `listElements_complete`: **exactly the named elements up to the first node that is too deep are
  listed, once each, in the order of the document.**
* `listElements_omits`: a shallow element behind a node that is too deep is not listed.
-/

namespace MarkupEdit.Edit

open MarkupEdit.Text MarkupEdit.Tree

variable {tree : SourceTree} {config : Config} {found : Found} {element : Element} {path : Path}
  {n : Node}

theorem ofFound?_eq_some (h : Element.ofFound? config found = some element) :
    found.node.elementName? = some element.name ∧ element.path = found.place.path ∧
      element.depth = found.place.depth ∧ element.span = found.node.span ∧
      element.stableId = (attributeOf? found.node config.idAttribute).bind
        AttributeContent.static? := by
  obtain ⟨name, hname, rfl⟩ := Option.map_eq_some_iff.mp h
  exact ⟨hname, rfl, rfl, rfl, rfl⟩

/-- Named elements can be described. -/
theorem exists_ofFound? (h : found.node.isNamedElement = true) (config : Config) :
    ∃ element, Element.ofFound? config found = some element := by
  obtain ⟨-, hname⟩ := Bool.and_eq_true_iff.mp h
  obtain ⟨name, hname⟩ := Option.isSome_iff_exists.mp hname
  exact ⟨_, by rw [Element.ofFound?, hname, Option.map_some]⟩

/-- The listed elements are the named ones among the nodes up to the first that is too deep. -/
theorem listElements_eq (tree : SourceTree) (config : Config) :
    listElements tree config =
      ((((preorder tree.root Place.root).takeWhile (Found.isWithin config.maxDepth)).filter
        (fun found => found.node.isNamedElement)).filterMap (Element.ofFound? config)) := by
  rw [listElements, collect_eq]

theorem mem_listElements :
    element ∈ listElements tree config ↔
      ∃ found ∈ (preorder tree.root Place.root).takeWhile (Found.isWithin config.maxDepth),
        found.node.isNamedElement = true ∧ Element.ofFound? config found = some element := by
  rw [listElements_eq, List.mem_filterMap]
  simp only [List.mem_filter, and_assoc]

/-- **A listing follows the document**, and has no element twice. -/
theorem pairwise_listElements (tree : SourceTree) (config : Config) :
    (listElements tree config).Pairwise (fun a b => a.path.order b.path = .lt) := by
  have hordered := (pairwise_preorder tree.root Place.root).sublist
    ((List.filter_sublist (p := fun found : Found => found.node.isNamedElement)).trans
      (List.takeWhile_sublist (Found.isWithin config.maxDepth)))
  rw [listElements_eq]
  refine List.Pairwise.filterMap _ ?_ hordered
  intro f g hbefore a ha b hb
  rwa [(ofFound?_eq_some ha).2.1, (ofFound?_eq_some hb).2.1]

/-- What is listed says where a named element is, and describes it. -/
theorem get_of_mem_listElements (h : element ∈ listElements tree config) :
    ∃ found : Found, tree.get element.path = some found.node ∧ found.node.isNamedElement = true ∧
      found.place.path = element.path ∧ element.depth = element.path.length ∧
      Element.ofFound? config found = some element := by
  obtain ⟨found, hfound, hnamed, helement⟩ := mem_listElements.mp h
  obtain ⟨hget, hdepth⟩ := get_of_mem_preorder (List.takeWhile_subset _ hfound)
  obtain ⟨-, hpath, hsame, -⟩ := ofFound?_eq_some helement
  rw [hpath, hsame]
  exact ⟨found, hget, hnamed, rfl, hdepth, helement⟩

/-- What the walk sees of a tree is what nothing too deep comes before. -/
theorem mem_takeWhile_preorder (hfound : found ∈ preorder tree.root Place.root) (limit : Nat) :
    found ∈ (preorder tree.root Place.root).takeWhile (Found.isWithin limit) ↔
      tree.Shallow limit found.place.path := by
  rw [mem_takeWhile_iff (pairwise_preorder _ _) hfound]
  constructor
  · intro hall q m hget hle
    obtain ⟨g, hg, -, rfl⟩ := exists_mem_preorder hget
    rw [← (get_of_mem_preorder hg).2]
    exact of_decide_eq_true (hall g hg hle)
  · intro hshallow g hg hle
    obtain ⟨hget, hdepth⟩ := get_of_mem_preorder hg
    refine decide_eq_true ?_
    rw [hdepth]
    exact hshallow _ _ hget hle

/-- **Which elements are listed.** -/
theorem exists_mem_listElements :
    (∃ element ∈ listElements tree config, element.path = path) ↔
      ∃ n, tree.get path = some n ∧ n.isNamedElement = true ∧
        tree.Shallow config.maxDepth path := by
  constructor
  · rintro ⟨element, hmem, rfl⟩
    obtain ⟨found, hfound, hnamed, helement⟩ := mem_listElements.mp hmem
    have hpre := List.takeWhile_subset _ hfound
    rw [(ofFound?_eq_some helement).2.1]
    exact ⟨found.node, (get_of_mem_preorder hpre).1, hnamed,
      (mem_takeWhile_preorder hpre _).mp hfound⟩
  · rintro ⟨n, hget, hnamed, hshallow⟩
    obtain ⟨found, hfound, rfl, rfl⟩ := exists_mem_preorder hget
    obtain ⟨element, helement⟩ := exists_ofFound? hnamed config
    exact ⟨element, mem_listElements.mpr ⟨found,
      (mem_takeWhile_preorder hfound _).mpr hshallow, hnamed, helement⟩,
      (ofFound?_eq_some helement).2.1⟩

/-- **A listing is complete up to the first node that is too deep.** It follows the order of the
document; it has an entry for a place exactly if a named element is there and nothing up to it is too
deep, so for every named element of a tree that is not deep; and an entry describes the element at its
place. What a file is answered with is the listing of its tree. -/
theorem listElements_complete (config : Config) (tree : SourceTree) :
    (listElements tree config).Pairwise (fun a b => a.path.order b.path = .lt) ∧
    (∀ path, (∃ element ∈ listElements tree config, element.path = path) ↔
      ∃ n, tree.get path = some n ∧ n.isNamedElement = true ∧
        tree.Shallow config.maxDepth path) ∧
    (tree.root.height ≤ config.maxDepth → ∀ path n, tree.get path = some n →
      n.isNamedElement = true → ∃ element ∈ listElements tree config, element.path = path) ∧
    (∀ element ∈ listElements tree config, ∃ found : Found,
      tree.get element.path = some found.node ∧ found.place.path = element.path ∧
        element.depth = element.path.length ∧ Element.ofFound? config found = some element) ∧
    ∀ (cache : ParseCache) (source file : String), cache.Sound →
      Tree.parse source (Language.ofFile file) = .ok tree →
      (findNodes config cache source file).2 = .ok ((listElements tree config).map
        (Element.info source.toList (LineIndex.ofText source.toList))) := by
  refine ⟨pairwise_listElements tree config, fun path => exists_mem_listElements, ?_, ?_, ?_⟩
  · intro hheight path n hget hnamed
    exact exists_mem_listElements.mpr ⟨n, hget, hnamed, SourceTree.shallow_of_height hheight path⟩
  · intro element hmem
    obtain ⟨found, hget, -, hpath, hdepth, helement⟩ := get_of_mem_listElements hmem
    exact ⟨found, hget, hpath, hdepth, helement⟩
  · intro cache source file hsound hparse
    have hsnd := ParseCache.parse_snd hsound source file
    rw [hparse] at hsnd
    unfold findNodes
    dsimp only
    rw [hsnd]

/-! ## Two elements in a row -/

/-- Two elements in statements of their own. -/
def pairText : String := "<A/>;<C/>;"

/-- The nodes of `pairText`. -/
def pairNode : Node :=
  Sketch.program
    [Sketch.statement (Sketch.bareTag "A" []), Sketch.statement (Sketch.bareTag "C" [])]

/-- The tree of `pairText`. -/
def pairTree : SourceTree := .sketch pairText pairNode

theorem listElements_complete_pair :
    pairTree.ReadFrom pairText ∧ pairTree.root.height ≤ Config.maxDepth {} ∧
      ∃ element ∈ listElements pairTree {}, element.path = [1, 0] := by
  have hread : pairTree.ReadFrom pairText :=
    readFrom_sketch (by decide) (by decide)
  have hheight : pairTree.root.height ≤ Config.maxDepth {} := by decide +kernel
  exact ⟨hread, hheight, (listElements_complete {} pairTree).2.2.1 hheight [1, 0] _ rfl (by decide)⟩

/-- **An element can be missing from a listing though it is not too deep.** The tokens of the first
element are, and the walk ends there. -/
theorem listElements_omits :
    pairTree.ReadFrom pairText ∧ (Config.validate { maxDepth := 2 }).isOk = true ∧
      (∃ n, pairTree.get [1, 0] = some n ∧ n.isNamedElement = true) ∧
      ([1, 0] : Path).length ≤ Config.maxDepth { maxDepth := 2 } ∧
      ¬ ∃ element ∈ listElements pairTree { maxDepth := 2 }, element.path = [1, 0] := by
  have hread : pairTree.ReadFrom pairText :=
    readFrom_sketch (by decide) (by decide)
  have hlisted : (listElements pairTree { maxDepth := 2 }).map Element.path = [[0, 0]] := by
    decide +kernel
  refine ⟨hread, by decide +kernel, ⟨_, rfl, by decide⟩, by decide, ?_⟩
  rintro ⟨element, hmem, hpath⟩
  have hat := List.mem_map_of_mem (f := Element.path) hmem
  rw [hlisted, hpath] at hat
  exact absurd hat (by decide)

end MarkupEdit.Edit
