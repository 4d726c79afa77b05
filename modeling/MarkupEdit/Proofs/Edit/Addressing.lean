import Mathlib.Algebra.Group.Nat.Defs
import Mathlib.Data.List.Nodup
import Mathlib.Data.List.Perm.Subperm
import MarkupEdit.Proofs.Edit.Listing
import MarkupEdit.Proofs.Edit.Positions

/-!
# Listed elements are found again

A listing gives a line and a column for every element, and its id. Both lead back to the element: the
line and the column because they mean the offset at which it starts, where nothing else does, and the
id because elements that share it are counted in the order in which they are listed.

* `ElementsApart`: what the grammar says of the places of elements.
* `offsetOf?_startPosition`: a position that is given out means the offset it was made from.
* `nearest?_eq_some`: the nearest candidate is one, and none is nearer.
* `byPosition?_eq_some`, `byId?_eq_some`: the two ways back.
* `findNodes_addressable`: **whatever is listed can be located by its position and by its id.**
-/

namespace MarkupEdit.Edit

open MarkupEdit.Text MarkupEdit.Tree

variable {tree : SourceTree} {source : String} {config : Config} {element : Element} {i : Nat}

/-! ## Where elements start -/

/-- What the grammar says of the places of elements: each covers some text, and no two start at the
same byte. -/
structure ElementsApart (tree : SourceTree) : Prop where
  covers : ∀ found ∈ preorder tree.root Place.root, found.node.kind.isElement = true →
    ∀ span ∈ found.node.span, span.startByte < span.endByte
  apart : (preorder tree.root Place.root).Pairwise fun f g =>
    f.node.kind.isElement = true → g.node.kind.isElement = true →
      f.node.span.map Span.startByte ≠ g.node.span.map Span.startByte

/-- A listed element starts between two characters, and not at the end of the text. -/
theorem exists_start (hread : tree.ReadFrom source) (hgrammar : ElementsApart tree)
    (h : element ∈ listElements tree config) :
    ∃ span, element.span = some span ∧ IsBoundary source.toList span.startByte ∧
      span.startByte < byteSize source.toList := by
  obtain ⟨found, hfound, hnamed, helement⟩ := mem_listElements.mp h
  have hpre := List.takeWhile_subset _ hfound
  obtain ⟨language, o, ho, hconvert⟩ := hread
  obtain ⟨span, hspan, hstart, hstop, -⟩ :=
    slices_of_get ho hconvert (get_of_mem_preorder hpre).1
  have hcovers := hgrammar.covers found hpre (Bool.and_eq_true_iff.mp hnamed).1 span hspan
  refine ⟨span, by rw [(ofFound?_eq_some helement).2.2.2.1, hspan], hstart, ?_⟩
  exact Nat.lt_of_lt_of_le hcovers hstop.le_size

/-- Listed elements start at different bytes. -/
theorem nodup_start (hgrammar : ElementsApart tree) (config : Config) :
    ((listElements tree config).map (fun element => element.span.map Span.startByte)).Nodup := by
  have happart := hgrammar.apart.sublist (List.takeWhile_sublist (Found.isWithin config.maxDepth))
  rw [listElements_eq]
  refine List.pairwise_map.mpr (List.Pairwise.filterMap _ ?_
    (List.pairwise_filter.mpr (happart.imp fun hne hf hg =>
      hne (Bool.and_eq_true_iff.mp hf).1 (Bool.and_eq_true_iff.mp hg).1)))
  intro f g hne a ha b hb
  rwa [(ofFound?_eq_some ha).2.2.2.1, (ofFound?_eq_some hb).2.2.2.1]

/-- There are no more elements than bytes. -/
theorem length_listElements_le (hread : tree.ReadFrom source) (hgrammar : ElementsApart tree)
    (config : Config) : (listElements tree config).length ≤ byteSize source.toList := by
  -- the starts are different bytes of the text
  have hstarts : (listElements tree config).map (fun element => element.span.map Span.startByte) ⊆
      (List.range (byteSize source.toList)).map some := by
    intro start hstart
    obtain ⟨element, hmem, rfl⟩ := List.mem_map.mp hstart
    obtain ⟨span, hspan, -, hlt⟩ := exists_start hread hgrammar hmem
    exact List.mem_map.mpr ⟨span.startByte, List.mem_range.mpr hlt, by rw [hspan, Option.map_some]⟩
  have hle := (List.Nodup.subperm (nodup_start hgrammar config) hstarts).length_le
  rwa [List.length_map, List.length_map, List.length_range] at hle

/-! ## By position -/

/-- **A position that is given out means the offset it was made from.** -/
theorem offsetOf?_startPosition {s : List Char} {offset : Nat} (hsize : byteSize s < 2 ^ 32)
    (hoffset : IsBoundary s offset) (hlt : offset < byteSize s) :
    (LineIndex.ofText s).offsetOf? s (startPosition s (LineIndex.ofText s) offset).1.toNat
      (startPosition s (LineIndex.ofText s) offset).2.toNat = some offset := by
  obtain ⟨l, r, rfl, rfl⟩ := hoffset
  have hbounds : byteSize l < greatest32 := by
    rw [greatest32]
    omega
  have hrow : l.count '\n' + 1 ≤ greatest32 := by
    have := count_le_byteSize l
    omega
  have hcolumn : utf16Length (lastLine l) ≤ greatest32 := by
    obtain ⟨front, line, rfl, hfront, hline⟩ := exists_lastLine l
    have := utf16_le_byteSize line
    rw [byteSize_append] at hbounds
    rw [lastLine_append hfront hline, utf16Length]
    omega
  exact offsetOf?_startPosition_of_append hrow hcolumn

/-- The nearest candidate is one of them, and none is nearer. -/
theorem nearest?_spec {candidates : List Measured} (hne : candidates ≠ []) :
    ∃ best ∈ candidates, nearest? candidates = some best ∧ ∀ c ∈ candidates, best.1 ≤ c.1 := by
  induction candidates with
  | nil => exact absurd rfl hne
  | cons candidate rest ih =>
    by_cases hrest : rest = []
    · subst hrest
      refine ⟨candidate, List.mem_cons_self, rfl, fun c hc => ?_⟩
      exact Nat.le_of_eq (by rw [List.mem_singleton.mp hc])
    · obtain ⟨best, hmem, hbest, hle⟩ := ih hrest
      rw [nearest?, hbest]
      dsimp only
      by_cases hlt : best.1 < candidate.1
      · refine ⟨best, List.mem_cons_of_mem _ hmem, if_pos hlt, fun c hc => ?_⟩
        rcases List.mem_cons.mp hc with rfl | hc
        · exact Nat.le_of_lt hlt
        · exact hle c hc
      · refine ⟨candidate, List.mem_cons_self, if_neg hlt, fun c hc => ?_⟩
        rcases List.mem_cons.mp hc with rfl | hc
        · exact Nat.le_refl _
        · exact Nat.le_trans (Nat.le_of_not_lt hlt) (hle c hc)

/-- If one candidate alone is at no distance, it is the nearest. -/
theorem nearest?_eq_some {candidates : List Measured} {e : Element} (h : (0, e) ∈ candidates)
    (honly : ∀ c ∈ candidates, c.1 = 0 → c.2 = e) : nearest? candidates = some (0, e) := by
  obtain ⟨⟨distance, best⟩, hmem, hbest, hle⟩ := nearest?_spec (List.ne_nil_of_mem h)
  have hzero : distance = 0 := Nat.le_zero.mp (hle _ h)
  subst hzero
  have hsame : best = e := honly _ hmem rfl
  rw [hbest, hsame]

/-- Only what starts at an offset is at no distance from it. -/
theorem start_of_measured? {position : PositionConfig} {offset line : Nat} {c : Measured}
    (h : measured? position offset line element = some c) :
    c.2 = element ∧ (c.1 = 0 → element.span.map Span.startByte = some offset) := by
  obtain ⟨span, hspan, h⟩ := Option.bind_eq_some_iff.mp h
  dsimp only at h
  split at h
  · cases h
    refine ⟨rfl, fun hzero => ?_⟩
    have hzero : span.startByte - offset + (offset - span.startByte) = 0 := hzero
    rw [hspan, Option.map_some, Option.some.injEq]
    omega
  · cases h

/-- **A listed element is found at the offset at which it starts.** -/
theorem byPosition?_eq_some (hgrammar : ElementsApart tree) {s : List Char} {span : Span}
    {hint : PositionHint} (h : element ∈ listElements tree config)
    (hspan : element.span = some span)
    (hoffset : (LineIndex.ofText s).offsetOf? s hint.line.toNat hint.column.toNat =
      some span.startByte) :
    byPosition? s config (listElements tree config) hint = some element := by
  -- whatever distance is tolerated, the element is at none
  have hmeasured : measured? config.position span.startByte (hint.line.toNat - 1) element =
      some (0, element) := by
    rw [measured?, hspan, Option.bind_some, Nat.sub_self]
    dsimp only
    rw [Nat.add_zero, decide_eq_true (Nat.zero_le _), Bool.true_or, if_pos rfl]
  have hnearest : nearest? ((listElements tree config).filterMap
      (measured? config.position span.startByte (hint.line.toNat - 1))) = some (0, element) := by
    refine nearest?_eq_some (List.mem_filterMap.mpr ⟨element, h, hmeasured⟩) ?_
    -- another element at no distance would start at the same byte
    intro c hc hzero
    obtain ⟨other, hother, hc⟩ := List.mem_filterMap.mp hc
    obtain ⟨hsame, hstart⟩ := start_of_measured? hc
    rw [hsame]
    refine List.inj_on_of_nodup_map (nodup_start hgrammar config) hother h ?_
    rw [hstart hzero, hspan, Option.map_some]
  unfold byPosition?
  rw [hoffset]
  dsimp only
  rw [hnearest, Option.map_some]

/-! ## By id -/

/-- What satisfies a condition is, of all that does, behind as many as there are in front of it. -/
theorem getElem?_filter_countP {α : Type} {p : α → Bool} {l : List α} {a : α}
    (h : l[i]? = some a) (ha : p a = true) : (l.filter p)[(l.take i).countP p]? = some a := by
  obtain ⟨hi, rfl⟩ := List.getElem?_eq_some_iff.mp h
  have hsplit : l.filter p = (l.take i).filter p ++ l[i] :: (l.drop (i + 1)).filter p := by
    rw [← List.filter_cons_of_pos ha, ← List.drop_eq_getElem_cons hi, ← List.filter_append,
      List.take_append_drop]
  rw [hsplit, List.countP_eq_length_filter, List.getElem?_append_right (Nat.le_refl _),
    Nat.sub_self]
  rfl

/-- **A listed element is found by its id and the number of those in front of it that share it.** -/
theorem byId?_eq_some {elements : List Element} {id : String} (h : elements[i]? = some element)
    (hid : element.stableId = some id) (hlength : elements.length < 2 ^ 64) :
    byId? elements (.nth id (some (UInt64.ofNat
      ((elements.take i).countP (·.stableId == some id))))) = some element := by
  -- the index is written in 64 bits
  have hcount : (elements.take i).countP (·.stableId == some id) < 2 ^ 64 :=
    Nat.lt_of_le_of_lt (Nat.le_trans List.countP_le_length (List.length_take_le' _ _)) hlength
  rw [byId?, IdHint.index, Option.getD_some, UInt64.toNat_ofNat_of_lt' hcount]
  exact getElem?_filter_countP h (beq_iff_eq.mpr hid)

/-! ## Locating what is listed -/

theorem locate_ofPosition {line column : UInt32}
    (h : byPosition? source.toList config (listElements tree config) ⟨line, column⟩ =
      some element) :
    locate tree source config (.ofPosition line column) = .ok (element.path, .position) := by
  have hhint : (Criteria.ofPosition line column).isEmpty = false := rfl
  rw [locate, hhint, if_neg Bool.false_ne_true]
  dsimp only [attempts, Criteria.ofPosition, Option.map_some, Option.map_none, Option.toList_some,
    Option.toList_none, List.append_nil]
  rw [h]
  rfl

theorem locate_byId {hint : IdHint} (h : byId? (listElements tree config) hint = some element) :
    locate tree source config { byId := some hint } = .ok (element.path, .id) := by
  have hhint : ({ byId := some hint } : Criteria).isEmpty = false := rfl
  rw [locate, hhint, if_neg Bool.false_ne_true]
  dsimp only [attempts, Option.map_some, Option.map_none, Option.toList_some, Option.toList_none,
    List.append_nil, List.nil_append]
  rw [h]
  rfl

/-- **Whatever is listed can be located by its position and by its id.** The line and the column of an
element lead to its path, and so does its id with the number of elements that share it and are listed
in front of it. -/
theorem findNodes_addressable (config : Config) (cache : ParseCache) (source file : String)
    (tree : SourceTree) (hparse : (cache.parse source file).2 = .ok tree)
    (hread : tree.ReadFrom source) (hsize : byteSize source.toList < 2 ^ 32)
    (hgrammar : ElementsApart tree) :
    ∃ infos, (findNodes config cache source file).2 = .ok infos ∧
      ∀ i (info : ElementInfo), infos[i]? = some info → ∃ path : Path, path.text = info.path ∧
        locate tree source config (.ofPosition info.line info.column) = .ok (path, .position) ∧
        ∀ id, info.stableId = some id →
          locate tree source config { byId := some (.nth id (some (UInt64.ofNat
            ((infos.take i).countP (·.stableId == some id))))) } = .ok (path, .id) := by
  have hfind : (findNodes config cache source file).2 = .ok ((listElements tree config).map
      (Element.info source.toList (LineIndex.ofText source.toList))) := by
    unfold findNodes
    dsimp only
    rw [hparse]
  refine ⟨_, hfind, ?_⟩
  intro i info hinfo
  rw [List.getElem?_map] at hinfo
  obtain ⟨element, helement, rfl⟩ := Option.map_eq_some_iff.mp hinfo
  have hmem := List.mem_of_getElem? helement
  obtain ⟨span, hspan, hstart, hlt⟩ := exists_start hread hgrammar hmem
  refine ⟨element.path, rfl, locate_ofPosition (byPosition?_eq_some hgrammar hmem hspan ?_), ?_⟩
  · have hoffset := offsetOf?_startPosition hsize hstart hlt
    simpa only [Element.info, hspan] using hoffset
  · intro id hid
    have hid : element.stableId = some id := hid
    have hlength := length_listElements_le hread hgrammar config
    have hfound := byId?_eq_some helement hid (by omega)
    refine locate_byId ?_
    rw [← List.map_take, List.countP_map]
    exact hfound

/-! ## Two elements with one id -/

/-- An element with two others in it that share their id. In front of the first stand characters of
two and of four bytes, of one and of two units; the second is on a line of its own. -/
def sharedText : String :=
  "<p>é😀<b data-stitch-id=\"x\"/>\n<i data-stitch-id=\"x\"/></p>;\n"

/-- An element of `sharedText` with an id. -/
def identified (name : String) : Node :=
  Sketch.bareTag name [Sketch.assigned "data-stitch-id" (Sketch.string "\"x\"")]

/-- The nodes of `sharedText`. -/
def sharedNode : Node :=
  { Sketch.program [Sketch.statement (Sketch.markup "p" []
      [.markupText "é😀", identified "b", (identified "i").withLeading "\n"])] with
    trailing := "\n" }

/-- The tree of `sharedText`. -/
def sharedTree : SourceTree := .sketch sharedText sharedNode

/-- A cache that holds the tree of `sharedText`. -/
def sharedCache : ParseCache := ⟨[⟨"a.tsx", sharedText, sharedTree⟩], 0, 0⟩

theorem findNodes_addressable_shared :
    (sharedCache.parse sharedText "a.tsx").2 = .ok sharedTree ∧ sharedTree.ReadFrom sharedText ∧
      byteSize sharedText.toList < 2 ^ 32 ∧ ElementsApart sharedTree ∧
      (listElements sharedTree {}).map (fun element => (element.path, element.stableId)) =
        [([0, 0], none), ([0, 0, 2], some "x"), ([0, 0, 3], some "x")] ∧
      ∃ infos, (findNodes {} sharedCache sharedText "a.tsx").2 = .ok infos ∧
        ∀ i (info : ElementInfo), infos[i]? = some info → ∃ path : Path, path.text = info.path ∧
          locate sharedTree sharedText {} (.ofPosition info.line info.column) =
            .ok (path, .position) ∧
          ∀ id, info.stableId = some id →
            locate sharedTree sharedText {} { byId := some (.nth id (some (UInt64.ofNat
              ((infos.take i).countP (·.stableId == some id))))) } = .ok (path, .id) := by
  have hparse : (sharedCache.parse sharedText "a.tsx").2 = .ok sharedTree := rfl
  have hread : sharedTree.ReadFrom sharedText :=
    readFrom_sketch (by decide) (by decide)
  have hsize : byteSize sharedText.toList < 2 ^ 32 := by decide
  have hgrammar : ElementsApart sharedTree := ⟨by decide +kernel, by decide +kernel⟩
  exact ⟨hparse, hread, hsize, hgrammar, by decide +kernel,
    findNodes_addressable {} sharedCache sharedText "a.tsx" sharedTree hparse hread hsize hgrammar⟩

end MarkupEdit.Edit
