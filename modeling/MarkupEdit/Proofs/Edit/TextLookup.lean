import MarkupEdit.Proofs.Edit.Listing
import MarkupEdit.Proofs.Text.References
import MarkupEdit.Proofs.Text.Words

/-!
# Listed texts are found again

A text that an element shows is known without references, and one that is looked for is decoded first.
So the text of a listing leads back to the first element that shows it if it looks like none of the
texts that stand for a character. One that does is decoded once more than the element was.

* `sought`: the text that elements are compared with.
* `byText?_of_find?`: the first element that shows it is found.
* `sought_of_listed`: **the text of an element is looked for as it is listed, unless it holds a
  reference.**
* `byText_listed`: listed texts that are located.
* `byText_missed`: an element that is listed with a reference, and the text leads to another one.
-/

namespace MarkupEdit.Edit

open MarkupEdit.Text MarkupEdit.Tree

variable {tree : SourceTree} {source : String} {config : Config} {element : Element}
  {elements : List Element} {text : String}

/-- The text that elements are compared with when one is looked for. -/
def sought (text : String) : String := normalized (String.ofList (decodeReferences text.toList))

/-- **The first element that shows the text that is sought is found.** -/
theorem byText?_of_find? (h : elements.find? (·.text == sought text) = some element)
    (hne : sought text ≠ "") : byText? config elements ⟨text, none⟩ = some element := by
  have hquery : (sought text == "") = false := beq_false_of_ne hne
  rw [byText?]
  dsimp only [ofTag]
  rw [← sought, hquery, if_neg Bool.false_ne_true, h]

theorem locate_ofText (h : byText? config (listElements tree config) ⟨text, none⟩ = some element) :
    locate tree source config (.ofText text) = .ok (element.path, .text) := by
  have hhint : (Criteria.ofText text).isEmpty = false := rfl
  rw [locate, hhint, if_neg Bool.false_ne_true]
  dsimp only [attempts, Criteria.ofText, Option.map_some, Option.map_none, Option.toList_some,
    Option.toList_none, List.append_nil, List.nil_append]
  rw [h]
  rfl

/-- The text of an element has single spaces for its blanks. -/
theorem normalized_text (h : element ∈ listElements tree config) :
    normalized element.text = element.text := by
  obtain ⟨found, -, -, helement⟩ := mem_listElements.mp h
  obtain ⟨name, -, rfl⟩ := Option.map_eq_some_iff.mp helement
  exact normalized_normalized _

/-- **The text of an element is looked for as it is listed, unless it holds a reference.** In that case
a shorter text is. -/
theorem sought_of_listed (h : element ∈ listElements tree config) :
    (HoldsReference element.text.toList ∧
      (sought element.text).toList.length < element.text.toList.length) ∨
    (¬ HoldsReference element.text.toList ∧ sought element.text = element.text) := by
  rcases decodeReferences_cases element.text.toList with ⟨hholds, hlt⟩ | ⟨hnone, hsame⟩
  · have hle := length_normalized_le (String.ofList (decodeReferences element.text.toList))
    rw [String.toList_ofList] at hle
    exact .inl ⟨hholds, Nat.lt_of_le_of_lt hle hlt⟩
  · refine .inr ⟨hnone, ?_⟩
    rw [sought, hsame, String.ofList_toList, normalized_text h]

/-- **A listed text leads back to the first element that shows it**, if it holds no reference; one that
holds a reference is looked for as a shorter text. Whatever text is looked for, the first element in
the order of the document that shows it decoded is located. -/
theorem byText_listed (config : Config) (cache : ParseCache) (source file : String)
    (tree : SourceTree) (hparse : (cache.parse source file).2 = .ok tree) :
    ∃ infos, (findNodes config cache source file).2 = .ok infos ∧
      (∀ info ∈ infos, info.text ≠ "" → ¬ HoldsReference info.text.toList →
        ∃ (first : ElementInfo) (path : Path),
          infos.find? (·.text == info.text) = some first ∧ path.text = first.path ∧
            locate tree source config (.ofText info.text) = .ok (path, .text)) ∧
      (∀ info ∈ infos, HoldsReference info.text.toList ↔ sought info.text ≠ info.text) ∧
      ∀ text first, sought text ≠ "" → infos.find? (·.text == sought text) = some first →
        ∃ path : Path, path.text = first.path ∧
          locate tree source config (.ofText text) = .ok (path, .text) := by
  have hlist : (findNodes config cache source file).2 = .ok ((listElements tree config).map
      (Element.info source.toList (LineIndex.ofText source.toList))) := by
    unfold findNodes
    dsimp only
    rw [hparse]
  generalize hinfos : (listElements tree config).map (Element.info source.toList
    (LineIndex.ofText source.toList)) = infos at hlist
  -- what is listed says of its text what the element says
  have hsought : ∀ info ∈ infos, (HoldsReference info.text.toList ∧
      (sought info.text).toList.length < info.text.toList.length) ∨
      (¬ HoldsReference info.text.toList ∧ sought info.text = info.text) := by
    intro info hinfo
    rw [← hinfos] at hinfo
    obtain ⟨element, hmem, rfl⟩ := List.mem_map.mp hinfo
    exact sought_of_listed hmem
  have hlocate : ∀ text first, sought text ≠ "" → infos.find? (·.text == sought text) = some first →
      ∃ path : Path, path.text = first.path ∧
        locate tree source config (.ofText text) = .ok (path, .text) := by
    intro text first hne hfirst
    rw [← hinfos, List.find?_map] at hfirst
    obtain ⟨element, helement, rfl⟩ := Option.map_eq_some_iff.mp hfirst
    exact ⟨element.path, rfl, locate_ofText (byText?_of_find? helement hne)⟩
  refine ⟨infos, hlist, fun info hinfo hne hnone => ?_, fun info hinfo => ?_, hlocate⟩
  · have hsame := ((hsought info hinfo).resolve_left fun h => hnone h.1).2
    -- some element shows the text, so one of them is the first
    have hsome : (infos.find? (·.text == info.text)).isSome = true :=
      List.find?_isSome.mpr ⟨info, hinfo, beq_self_eq_true _⟩
    obtain ⟨first, hfirst⟩ := Option.isSome_iff_exists.mp hsome
    obtain ⟨path, hpath, hlocated⟩ :=
      hlocate info.text first (by rwa [hsame]) (by rwa [hsame])
    exact ⟨first, path, hfirst, hpath, hlocated⟩
  · rcases hsought info hinfo with ⟨hholds, hlt⟩ | ⟨hnone, hsame⟩
    · refine iff_of_true hholds fun heq => ?_
      rw [heq] at hlt
      exact Nat.lt_irrefl _ hlt
    · exact iff_of_false hnone fun hne => hne hsame

/-! ## Two elements with a reference -/

/-- Two elements. The first shows `&lt;`, for it is written with a reference to `&`, and the second
shows `<`. -/
def doubledText : String := "<p>&amp;lt;</p>;<b>&lt;</b>;"

/-- The nodes of `doubledText`. -/
def doubledNode : Node :=
  Sketch.program
    [Sketch.statement (Sketch.markup "p" []
      [.leaf .htmlCharacterReference "&amp;", .markupText "lt;"]),
    Sketch.statement (Sketch.markup "b" [] [.leaf .htmlCharacterReference "&lt;"])]

/-- The tree of `doubledText`. -/
def doubledTree : SourceTree := .sketch doubledText doubledNode

/-- A cache that holds the tree of `doubledText`. -/
def doubledCache : ParseCache := ⟨[⟨"a.tsx", doubledText, doubledTree⟩], 0, 0⟩

theorem byText_listed_doubled :
    (doubledCache.parse doubledText "a.tsx").2 = .ok doubledTree ∧
      doubledTree.ReadFrom doubledText ∧
      ∃ infos, (findNodes {} doubledCache doubledText "a.tsx").2 = .ok infos ∧
        (∀ info ∈ infos, info.text ≠ "" → ¬ HoldsReference info.text.toList →
          ∃ (first : ElementInfo) (path : Path),
            infos.find? (·.text == info.text) = some first ∧ path.text = first.path ∧
              locate doubledTree doubledText {} (.ofText info.text) = .ok (path, .text)) ∧
        (∀ info ∈ infos, HoldsReference info.text.toList ↔ sought info.text ≠ info.text) ∧
        ∀ text first, sought text ≠ "" → infos.find? (·.text == sought text) = some first →
          ∃ path : Path, path.text = first.path ∧
            locate doubledTree doubledText {} (.ofText text) = .ok (path, .text) := by
  have hparse : (doubledCache.parse doubledText "a.tsx").2 = .ok doubledTree := rfl
  have hread : doubledTree.ReadFrom doubledText :=
    readFrom_sketch (by decide) (by decide)
  exact ⟨hparse, hread, byText_listed {} doubledCache doubledText "a.tsx" doubledTree hparse⟩

/-- **A listed text can lead to another element.** The first element is listed with `&lt;`; looked for,
that is decoded to `<`, which the second element shows. -/
theorem byText_missed :
    doubledTree.ReadFrom doubledText ∧
      (listElements doubledTree {}).map (fun element => (element.path, element.text)) =
        [([0, 0], "&lt;"), ([1, 0], "<")] ∧
      locate doubledTree doubledText {} (.ofText "&lt;") = .ok ([1, 0], .text) := by
  have hread : doubledTree.ReadFrom doubledText :=
    readFrom_sketch (by decide) (by decide)
  exact ⟨hread, by decide +kernel, by decide +kernel⟩

end MarkupEdit.Edit
