import MarkupEdit.Proofs.Edit.StyleEffect

/-!
# Adding a class twice

A class that was just added is among the classes of the element, and nothing that it displaces is. What
was written is read again word by word, whatever quotes it took, so adding the class once more leaves the
classes as they are, and the element is not touched.

* `parse_text`: **words are read from the value that they were written into.**
* `withClass`: the value of the class attribute with one more class; `withClass_withClass`.
* `editStyle_adding`: what adding a class does is to write this value, if it is another one.
* `editStyle_adding_again`: **adding a class once more changes nothing.**
-/

namespace MarkupEdit.Edit

open MarkupEdit.Text MarkupEdit.Tree MarkupEdit.Style

variable {config : Config} {element tag : Node} {current : CurrentClasses} {c value : String}

/-! ## Classes that are written and read -/

theorem isWord_of_mem_parse (h : c ∈ ClassList.parse value) : IsWord c.toList := by
  obtain ⟨w, hw, rfl⟩ := List.mem_map.mp h
  rw [String.toList_ofList]
  exact isWord_of_mem hw

/-- **Words are read from the value that they were written into.** -/
theorem parse_text {l : ClassList} (h : ∀ c ∈ l, IsWord c.toList) :
    ClassList.parse (ClassList.text l) = l := by
  have hwords : ∀ w ∈ l.map String.toList, IsWord w := by
    intro w hw
    obtain ⟨c, hc, rfl⟩ := List.mem_map.mp hw
    exact h c hc
  rw [ClassList.parse, words, toList_text, blankWords_intercalate hwords, List.map_map]
  exact List.map_id'' (fun c => String.ofList_toList) l

theorem words_of_isWord (h : IsWord c.toList) : words c = [c] := by
  rw [words, blankWords_of_isWord h, List.map_singleton, String.ofList_toList]

/-- A text without the sign of a reference is read as it is written. -/
theorem readText_of_not_mem (h : '&' ∉ value.toList) : readText value = value := by
  unfold readText
  split
  · rfl
  · rw [decodeReferences_of_not_mem h, String.ofList_toList]

/-! ## One more class -/

/-- The value of the class attribute with one more class. -/
def withClass (value c : String) : String := ClassList.text ((ClassList.parse value).merge [c])

theorem mem_of_mem_merge {l : ClassList} {d : String} (h : d ∈ l.merge [c]) : d ∈ l ∨ d = c := by
  have hmem : d ∈ l ++ [c] := ClassList.mem_of_survives (ClassList.mem_absorbed.mp h)
  rwa [List.mem_append, List.mem_singleton] at hmem

theorem isWord_of_mem_merge (hword : IsWord c.toList) {d : String}
    (h : d ∈ (ClassList.parse value).merge [c]) : IsWord d.toList := by
  rcases mem_of_mem_merge h with hparse | rfl
  · exact isWord_of_mem_parse hparse
  · exact hword

/-- A class that was just merged in changes nothing. -/
theorem merge_merge_singleton (l : ClassList) (c : String) :
    (l.merge [c]).merge [c] = l.merge [c] := by
  have hmerge : l.merge [c] = ClassList.absorb (ClassList.absorbed l) c := ClassList.absorbed_concat
  have hagain : (l.merge [c]).merge [c] = ClassList.absorb (ClassList.absorbed (l.merge [c])) c :=
    ClassList.absorbed_concat
  rw [hagain, ClassList.absorbed_merge, hmerge, ClassList.absorb_absorb]

/-- **A value with a class in it stays as it is** when that class is added. -/
theorem withClass_withClass (hword : IsWord c.toList) (value : String) :
    withClass (withClass value c) c = withClass value c := by
  rw [withClass, withClass, parse_text fun d hd => isWord_of_mem_merge hword hd,
    merge_merge_singleton]

theorem withClass_ne_empty (hword : IsWord c.toList) (value : String) : withClass value c ≠ "" := by
  have hmem : c ∈ (ClassList.parse value).merge [c] :=
    ClassList.mem_absorbed.mpr (ClassList.survives_concat.mpr (.inr rfl))
  exact text_ne_empty hmem hword

/-- No reference comes up where there is none in the classes. -/
theorem not_mem_withClass (hvalue : '&' ∉ value.toList) (hc : '&' ∉ c.toList) :
    '&' ∉ (withClass value c).toList := by
  intro hmem
  rw [withClass, toList_text] at hmem
  rcases mem_intercalate hmem with hspace | ⟨w, hw, hsign⟩
  · cases hspace
  obtain ⟨d, hd, rfl⟩ := List.mem_map.mp hw
  rcases mem_of_mem_merge hd with hparse | rfl
  · obtain ⟨piece, hpiece, rfl⟩ := List.mem_map.mp hparse
    rw [String.toList_ofList] at hsign
    exact hvalue (mem_of_mem_splitAtEach (List.mem_filter.mp hpiece).1 hsign)
  · exact hc hsign

/-! ## The edit -/

variable {tree edited : SourceTree} {path : Path} {changes : List Change}

/-- The change that adds a class and does nothing else. -/
def adding (c : String) : StyleChange := ⟨none, [c], [], .empty⟩

theorem changedClasses_adding (hword : IsWord c.toList) (value : String) :
    changedClasses value (adding c) [] = withClass value c := by
  have hwithout : (ClassList.parse value).without [] = ClassList.parse value :=
    List.filter_eq_self.mpr fun _ _ => rfl
  rw [changedClasses, adding, withClass]
  dsimp only [Option.getD_none]
  rw [List.flatMap_nil, hwithout, List.flatMap_singleton, words_of_isWord hword, List.append_nil]

/-- **Adding a class writes the value with that class**, if it is another one. -/
theorem editStyle_adding (helement : elementAt tree path = .ok element)
    (hopening : element.opening? = some tag) (hcurrent : currentClasses tag config = .ok current)
    (hword : IsWord c.toList) :
    editStyle tree path (adding c) config =
      editClasses tree path
        (if withClass current.value c = current.value then none
          else some ⟨current.name, withClass current.value c⟩) config := by
  have hplan : ∀ classes, StylePlan.of classes (adding c).style = ⟨[], []⟩ := fun _ => rfl
  have hclasses : classEdit? tag (adding c) [] config =
      .ok (if withClass current.value c = current.value then none
        else some ⟨current.name, withClass current.value c⟩) := by
    have htouches : touchesClasses (adding c) [] = true := rfl
    rw [classEdit?, if_pos htouches, hcurrent]
    show Except.ok (if changedClasses current.value (adding c) [] == current.value then none
      else some (CurrentClasses.mk current.name (changedClasses current.value (adding c) []))) = _
    simp only [changedClasses_adding hword, beq_iff_eq]
  rw [editStyle, helement]
  simp only [bind, Except.bind, hopening, hplan, hclasses]
  generalize editClasses tree path _ config = result
  cases result with
  | error fault => rfl
  | ok result =>
    obtain ⟨between, classChanges⟩ := result
    show Except.ok (between, classChanges ++ []) = _
    rw [List.append_nil]

/-- **Adding a class once more changes nothing.** Where a class can be added to an element whose classes
can be read, it can be added again, nothing is reported and the tree stays as it is. -/
theorem editStyle_adding_again (hvalid : config.validate = .ok config)
    (helement : elementAt tree path = .ok element) (hopening : element.opening? = some tag)
    (hcurrent : currentClasses tag config = .ok current) (hvalue : '&' ∉ current.value.toList)
    (hword : IsWord c.toList) (hc : '&' ∉ c.toList)
    (h : editStyle tree path (adding c) config = .ok (edited, changes)) :
    editStyle edited path (adding c) config = .ok (edited, []) := by
  rw [editStyle_adding helement hopening hcurrent hword] at h
  split at h
  · next hsame =>
    -- the class was there already
    cases h
    rw [editStyle_adding helement hopening hcurrent hword, if_pos hsame]
    rfl
  · obtain ⟨element', tag', written, helement', hopening', hassigned, hwritten⟩ :=
      classes_assigned helement hopening h
    rw [if_neg (withClass_ne_empty hword current.value)] at hwritten
    rw [hwritten] at hassigned
    have hcurrent' : currentClasses tag' config =
        .ok ⟨current.name, withClass current.value c⟩ := by
      rw [currentClasses_assigned hvalid hcurrent hassigned,
        readText_of_not_mem (not_mem_withClass hvalue hc)]
    rw [editStyle_adding helement' hopening' hcurrent' hword,
      if_pos (withClass_withClass hword current.value)]
    rfl

/-- The class holds both quotes, so that all classes are written as a literal. -/
theorem editStyle_adding_again_quotes :
    Config.validate {} = .ok {} ∧
      (bareTree [.markupAttribute "class" (some (.attributeValue " p-4  flex"))]).toSource =
        "<p class=\" p-4  flex\"/>;" ∧
      ∃ edited changes,
        editStyle (bareTree [.markupAttribute "class" (some (.attributeValue " p-4  flex"))]) [0, 0]
          (adding "before:content-['\"']") {} = .ok (edited, changes) ∧
        edited.toSource = "<p class=\x7b\"p-4 flex before:content-['\\\"']\"\x7d/>;" ∧
        editStyle edited [0, 0] (adding "before:content-['\"']") {} = .ok (edited, []) := by
  have hvalid : Config.validate {} = .ok {} := by decide +kernel
  generalize htree :
    bareTree [.markupAttribute "class" (some (.attributeValue " p-4  flex"))] = tree
  have helement : elementAt tree [0, 0] =
      .ok (bareElement [.markupAttribute "class" (some (.attributeValue " p-4  flex"))]) := by
    rw [← htree]
    rfl
  have hcurrent : currentClasses
      (bareElement [.markupAttribute "class" (some (.attributeValue " p-4  flex"))]) {} =
        .ok ⟨"class", " p-4  flex"⟩ := by decide +kernel
  have hedit : (editStyle tree [0, 0] (adding "before:content-['\"']") {}).map
      (fun result => result.1.toSource) =
        .ok "<p class=\x7b\"p-4 flex before:content-['\\\"']\"\x7d/>;" := by
    rw [← htree]
    decide +kernel
  obtain ⟨⟨edited, changes⟩, hresult, hsource⟩ := ok_of_map hedit
  have hmem : "before:content-['\"']" ∈ ClassList.parse "before:content-['\"']" := by decide +kernel
  refine ⟨hvalid, by rw [← htree]; decide +kernel, edited, changes, hresult, hsource, ?_⟩
  exact editStyle_adding_again hvalid helement rfl hcurrent (by decide +kernel)
    (isWord_of_mem_parse hmem) (by decide +kernel) hresult

end MarkupEdit.Edit
