import MarkupEdit.Proofs.Edit.StyleEntries
import MarkupEdit.Proofs.Style.Remerge

/-!
# A change of a style takes effect

A change of properties sets classes first and then the inline style. What is read from the element
afterwards shows each entry of the change, except that the class of a later entry can displace the class
of an earlier one.

* `mem_parse_readText`: **a class is read from the value that it was written into.**
* `currentClasses_assigned`: what is read of the classes that were set.
* `classes_step`, `inline_assigned`, `inline_step`: what one of the two edits does to the tag.
* `values_of_foldl`: **what the inline style has for an entry after all changes.**
* `InEffect`: what the element shows of an entry.
* `inEffect_of_editStyle`: **every entry of a change of properties takes effect.**
* `entries_without_effect`: an entry whose class the class of a later entry takes away, and others.
-/

namespace MarkupEdit.Edit

open MarkupEdit.Text MarkupEdit.Tree MarkupEdit.Style

variable {config : Config} {element tag tag' : Node} {before after : List StyleEntry}
  {current : CurrentClasses} {utility : List String}

/-! ## Classes in the value of an attribute -/

theorem toList_text (l : ClassList) :
    (ClassList.text l).toList = [' '].intercalate (l.map String.toList) := by
  rw [ClassList.text, String.toList_intercalate]
  rfl

theorem mem_words {s c : String} (h : c.toList ∈ blankWords s.toList) : c ∈ words s :=
  List.mem_map.mpr ⟨c.toList, h, String.ofList_toList⟩

/-- A class is in the list that it was written into. -/
theorem mem_parse_text {l : ClassList} {c : String} (hc : c ∈ l) (hword : IsWord c.toList) :
    c ∈ ClassList.parse (ClassList.text l) := by
  refine mem_words ?_
  rw [toList_text, blankWords_intercalate_eq_flatMap]
  refine List.mem_flatMap.mpr ⟨c.toList, List.mem_map_of_mem hc, ?_⟩
  rw [blankWords_of_isWord hword]
  exact List.mem_singleton_self _

/-- A list with a class in it is written as a text that is not empty. -/
theorem text_ne_empty {l : ClassList} {c : String} (hc : c ∈ l) (hword : IsWord c.toList) :
    ClassList.text l ≠ "" := by
  intro hempty
  have hparse := mem_parse_text hc hword
  rw [hempty] at hparse
  cases hparse

/-- **A class is read from the value that it was written into**, if it has no reference in it. -/
theorem mem_parse_readText {l : ClassList} {c : String} (hc : c ∈ l) (hword : IsWord c.toList)
    (hnone : ¬ HoldsReference c.toList) : c ∈ ClassList.parse (readText (ClassList.text l)) := by
  unfold readText
  split
  · exact mem_parse_text hc hword
  · have hsame : decodeReferences c.toList = c.toList :=
      ((decodeReferences_cases c.toList).resolve_left fun h => hnone h.1).2
    refine mem_words ?_
    rw [String.toList_ofList, toList_text, decodeReferences_intercalate,
      blankWords_intercalate_eq_flatMap]
    refine List.mem_flatMap.mpr
      ⟨c.toList, List.mem_map.mpr ⟨c.toList, List.mem_map_of_mem hc, hsame⟩, ?_⟩
    rw [blankWords_of_isWord hword]
    exact List.mem_singleton_self _

/-! ## Classes of a tag -/

/-- The attribute that classes are read from is the first one that the tag has. -/
theorem exists_first_of_currentClasses (hvalid : config.validate = .ok config)
    (h : currentClasses tag config = .ok current) :
    ∃ front back, config.classAttributes = front ++ current.name :: back ∧
      ∀ name ∈ front, name ≠ current.name ∧ tag.children.find? (Node.isAttribute name) = none := by
  unfold currentClasses at h
  cases hfirst : config.classAttributes.findSome? (fun name =>
      (tag.children.find? (Node.isAttribute name)).map (fun child =>
        (name, attributeContent child))) with
  | none =>
    rw [hfirst] at h
    cases h
    obtain ⟨front, back, hlist, hfront⟩ :=
      List.eq_append_cons_of_mem (primaryClassAttribute_mem hvalid)
    refine ⟨front, back, hlist, fun name hname => ⟨?_, ?_⟩⟩
    · rintro rfl
      exact hfront hname
    · have hmem : name ∈ config.classAttributes := by
        rw [hlist]
        exact List.mem_append_left _ hname
      exact Option.map_eq_none_iff.mp (List.findSome?_eq_none_iff.mp hfirst name hmem)
  | some first =>
    obtain ⟨front, name, back, hlist, hname, hfront⟩ := List.findSome?_eq_some_iff.mp hfirst
    obtain ⟨child, hchild, rfl⟩ := Option.map_eq_some_iff.mp hname
    rw [hfirst] at h
    have hcurrent : current.name = name := by
      cases hcase : attributeContent child <;> rw [hcase] at h <;> cases h <;> rfl
    rw [hcurrent]
    refine ⟨front, back, hlist, fun other hother => ?_⟩
    have hnone := Option.map_eq_none_iff.mp (hfront other hother)
    refine ⟨fun heq => ?_, hnone⟩
    rw [heq, hchild] at hnone
    cases hnone

/-- The classes are told by what is found of the class attributes. -/
theorem currentClasses_congr (h : ∀ name ∈ config.classAttributes,
      tag'.children.find? (Node.isAttribute name) = tag.children.find? (Node.isAttribute name)) :
    currentClasses tag' config = currentClasses tag config := by
  have hfirst : config.classAttributes.findSome? (fun name =>
      (tag'.children.find? (Node.isAttribute name)).map (fun child =>
        (name, attributeContent child))) =
      config.classAttributes.findSome? (fun name =>
        (tag.children.find? (Node.isAttribute name)).map (fun child =>
          (name, attributeContent child))) := by
    generalize config.classAttributes = names at h
    induction names with
    | nil => rfl
    | cons name names ih =>
      rw [List.findSome?_cons, List.findSome?_cons, h name List.mem_cons_self,
        ih fun other hother => h other (List.mem_cons_of_mem _ hother)]
  rw [currentClasses, currentClasses, hfirst]

/-- **What is read of the classes that were set.** -/
theorem currentClasses_assigned (hvalid : config.validate = .ok config)
    (h : currentClasses tag config = .ok current) {value : String}
    (hassigned : Assigned current.name tag
      (some (.markupAttribute current.name (some (.attributeValue value)))) tag') :
    currentClasses tag' config = .ok ⟨current.name, readText value⟩ := by
  obtain ⟨front, back, hlist, hfront⟩ := exists_first_of_currentClasses hvalid h
  have hwritten := isAttribute_markupAttribute current.name (some (.attributeValue value))
  obtain ⟨c, hfind, hchildren⟩ := hassigned.exists_find? hwritten
  have hcontent : attributeContent c = .static (readText value) :=
    (attributeContent_congr hchildren).trans (attributeContent_attributeValue _ _)
  have hfirst : config.classAttributes.findSome? (fun name =>
      (tag'.children.find? (Node.isAttribute name)).map (fun child =>
        (name, attributeContent child))) = some (current.name, .static (readText value)) := by
    refine List.findSome?_eq_some_iff.mpr ⟨front, current.name, back, hlist, ?_, fun name hname => ?_⟩
    · rw [hfind, Option.map_some, hcontent]
    · obtain ⟨hne, hnone⟩ := hfront name hname
      rw [hassigned.find?_of_ne (fun new hnew => by cases hnew; exact hwritten) hne.symm, hnone]
      rfl
  rw [currentClasses, hfirst]

/-! ## The two edits -/

variable {tree between edited : SourceTree} {path : Path} {changes : List Change} {style : TextMap}

theorem elementAt_of_placed (h : placed tree path element = .ok edited)
    (hkind : element.kind.isElement = true) : elementAt edited path = .ok element := by
  rw [elementAt, get_of_placed h]
  dsimp only
  rw [if_pos hkind]

/-- The element with a change in its tag is at the path of the element. -/
theorem exists_elementAt_of_placed {change : Node → Node}
    (helement : elementAt tree path = .ok element) (hopening : element.opening? = some tag)
    (hkind : (change tag).kind = tag.kind)
    (h : placed tree path (element.updateOpening change) = .ok edited) :
    ∃ element', elementAt edited path = .ok element' ∧ element'.opening? = some (change tag) := by
  obtain ⟨hopening', hkind'⟩ := opening?_updateOpening hopening hkind
  refine ⟨_, elementAt_of_placed h ?_, hopening'⟩
  rw [hkind']
  exact (elementAt_eq_ok helement).2

/-- The classes after a change of properties are those that were there and those that the properties
became, merged. -/
theorem changedClasses_of_style (value : String) (style : TextMap) (utility : List String) :
    changedClasses value ⟨none, [], [], style⟩ utility =
      ClassList.text ((ClassList.parse value).merge utility) := by
  have hwithout : (ClassList.parse value).without [] = ClassList.parse value :=
    List.filter_eq_self.mpr fun _ _ => rfl
  rw [changedClasses]
  dsimp only [Option.getD_none]
  rw [List.flatMap_nil, hwithout, List.nil_append]

/-- **Classes that are written** set their attribute in the tag. -/
theorem classes_assigned (helement : elementAt tree path = .ok element)
    (hopening : element.opening? = some tag) {name value : String}
    (h : editClasses tree path (some ⟨name, value⟩) config = .ok (between, changes)) :
    ∃ element' tag' written, elementAt between path = .ok element' ∧
      element'.opening? = some tag' ∧ Assigned name tag written tag' ∧
      written = if value = "" then none
        else some (.markupAttribute name (some (.attributeValue value))) := by
  obtain ⟨found, hfound, hplaced⟩ := editAttribute_eq_ok h
  obtain rfl : element = found := Except.ok.inj (helement.symm.trans hfound)
  have hassigned := assigned_attributeChange tag name (if value == "" then none else some (.text value))
  obtain ⟨element', helement', hopening'⟩ :=
    exists_elementAt_of_placed helement hopening hassigned.kind hplaced
  refine ⟨element', _, _, helement', hopening', hassigned, ?_⟩
  by_cases hempty : value = ""
  · rw [if_pos hempty, if_pos (beq_iff_eq.mpr hempty)]
    rfl
  · rw [if_neg hempty, if_neg (by simpa using hempty)]
    rfl

/-- The attribute that the classes are read from is one of those of the classes, so that all others
stay when it is set. -/
theorem filter_of_classes (hvalid : config.validate = .ok config)
    (hcurrent : currentClasses tag config = .ok current) {written : Option Node} {other value : String}
    (hassigned : Assigned current.name tag written tag')
    (hwritten : written = if value = "" then none
      else some (.markupAttribute current.name (some (.attributeValue value))))
    (hother : other ∉ config.classAttributes) :
    tag'.children.filter (Node.isAttribute other) =
      tag.children.filter (Node.isAttribute other) := by
  have hattribute : ∀ new ∈ written, new.isAttribute current.name = true := by
    intro new hnew
    rw [hwritten] at hnew
    split at hnew
    · cases hnew
    · cases hnew
      exact isAttribute_markupAttribute _ _
  have hne : current.name ≠ other := by
    obtain ⟨front, back, hlist, -⟩ := exists_first_of_currentClasses hvalid hcurrent
    rintro rfl
    rw [hlist] at hother
    exact hother (List.mem_append_right _ List.mem_cons_self)
  exact hassigned.filter_of_ne hattribute hne

/-- **A list of classes that is written** is read of the tag, and all attributes that hold no classes
stay. -/
theorem classes_written (hvalid : config.validate = .ok config)
    (helement : elementAt tree path = .ok element) (hopening : element.opening? = some tag)
    (hcurrent : currentClasses tag config = .ok current) {l : ClassList}
    (h : editClasses tree path (some ⟨current.name, ClassList.text l⟩) config =
      .ok (between, changes)) :
    ∃ element' tag', elementAt between path = .ok element' ∧ element'.opening? = some tag' ∧
      (∀ other, other ∉ config.classAttributes →
        tag'.children.filter (Node.isAttribute other) =
          tag.children.filter (Node.isAttribute other)) ∧
      ∀ c ∈ l, IsWord c.toList → ¬ HoldsReference c.toList →
        ∃ current', currentClasses tag' config = .ok current' ∧
          c ∈ ClassList.parse current'.value := by
  obtain ⟨element', tag', written, helement', hopening', hassigned, hwritten⟩ :=
    classes_assigned helement hopening h
  refine ⟨element', tag', helement', hopening', ?_, ?_⟩
  · exact fun other => filter_of_classes hvalid hcurrent hassigned hwritten
  · intro c hc hword hnone
    rw [if_neg (text_ne_empty hc hword)] at hwritten
    rw [hwritten] at hassigned
    exact ⟨_, currentClasses_assigned hvalid hcurrent hassigned, mem_parse_readText hc hword hnone⟩

/-- **The edit of the classes** keeps all attributes that hold no classes, and lists the classes that
survive. -/
theorem classes_step (hvalid : config.validate = .ok config)
    (helement : elementAt tree path = .ok element) (hopening : element.opening? = some tag)
    {classEdit : Option CurrentClasses}
    (hplan : classEdit? tag ⟨none, [], [], style⟩ utility config = .ok classEdit)
    (h : editClasses tree path classEdit config = .ok (between, changes)) :
    ∃ element' tag', elementAt between path = .ok element' ∧ element'.opening? = some tag' ∧
      (∀ other, other ∉ config.classAttributes →
        tag'.children.filter (Node.isAttribute other) =
          tag.children.filter (Node.isAttribute other)) ∧
      ∀ c, ClassList.Survives utility c → IsWord c.toList → ¬ HoldsReference c.toList →
        ∃ current, currentClasses tag' config = .ok current ∧ c ∈ ClassList.parse current.value := by
  obtain ⟨htouches, rfl⟩ | ⟨current, hcurrent, hwritten⟩ := classEdit?_cases hplan
  · cases h
    have hnil : utility = [] := by
      cases utility with
      | nil => rfl
      | cons token rest => cases htouches
    refine ⟨element, tag, helement, hopening, fun _ _ => rfl, fun c hc => ?_⟩
    rw [hnil] at hc
    exact absurd hc ClassList.not_survives_nil
  rw [changedClasses_of_style] at hwritten
  have hmem : ∀ c, ClassList.Survives utility c →
      c ∈ (ClassList.parse current.value).merge utility := fun c hc =>
    ClassList.mem_absorbed.mpr (ClassList.survives_append.mpr (.inr hc))
  generalize (ClassList.parse current.value).merge utility = merged at hwritten hmem
  obtain ⟨hsame, rfl⟩ | rfl := hwritten
  · -- the classes are there already
    cases h
    refine ⟨element, tag, helement, hopening, fun _ _ => rfl, fun c hc hword _ => ?_⟩
    refine ⟨current, hcurrent, ?_⟩
    rw [← hsame]
    exact mem_parse_text (hmem c hc) hword
  · obtain ⟨element', tag', helement', hopening', hothers, hlisted⟩ :=
      classes_written hvalid helement hopening hcurrent h
    exact ⟨element', tag', helement', hopening', hothers, fun c hc => hlisted c (hmem c hc)⟩

/-- What is written as the inline style for some entries. -/
def writtenStyle (entries : List StyleEntry) : Option Node :=
  if entries.isEmpty then none else some (styleNode entries)

theorem isAttribute_of_writtenStyle {new : Node} (h : new ∈ writtenStyle after) :
    new.isAttribute styleAttribute = true := by
  unfold writtenStyle at h
  split at h
  · cases h
  · cases h
    exact isAttribute_markupAttribute _ _

/-- **Entries that are written as the inline style** set its attribute in the tag. -/
theorem inline_assigned (helement : elementAt tree path = .ok element)
    (hopening : element.opening? = some tag)
    (h : editInlineStyle tree path (some (before, after)) = .ok (edited, changes)) :
    ∃ element' tag', elementAt edited path = .ok element' ∧ element'.opening? = some tag' ∧
      Assigned styleAttribute tag (writtenStyle after) tag' := by
  obtain ⟨found, hfound, h⟩ := ok_of_bind h
  obtain rfl : element = found := Except.ok.inj (helement.symm.trans hfound)
  obtain ⟨last, hplaced, h⟩ := ok_of_bind h
  cases h
  have hassigned := assigned_withStyle after tag
  obtain ⟨element', helement', hopening'⟩ :=
    exists_elementAt_of_placed helement hopening hassigned.kind hplaced
  exact ⟨element', _, helement', hopening', hassigned⟩

/-- What is read of entries that were written. Where there are none, no other attribute of the inline
style is to be left. -/
theorem currentStyle_assigned (h : Assigned styleAttribute tag (writtenStyle after) tag')
    (honce : after = [] →
      (tag.children.filter (Node.isAttribute styleAttribute)).length ≤ 1) :
    currentStyle tag' = .ok (after.map readEntry) := by
  cases after with
  | nil =>
    rw [currentStyle, h.find?_eq_none (honce rfl)]
    rfl
  | cons entry rest =>
    have hwritten : (styleNode (entry :: rest)).isAttribute styleAttribute = true :=
      isAttribute_markupAttribute _ _
    obtain ⟨c, hfind, hchildren⟩ := h.exists_find? hwritten
    exact currentStyle_styleNode hfind hchildren

/-- **The edit of the inline style** keeps all other attributes, and what is read is what was written,
but for the spelling of the properties. -/
theorem inline_step (helement : elementAt tree path = .ok element)
    (hopening : element.opening? = some tag)
    (honce : (tag.children.filter (Node.isAttribute styleAttribute)).length ≤ 1)
    (h : editInlineStyle tree path (some (before, after)) = .ok (edited, changes)) :
    ∃ element' tag', elementAt edited path = .ok element' ∧ element'.opening? = some tag' ∧
      currentStyle tag' = .ok (after.map readEntry) ∧
      ∀ other, other ≠ styleAttribute →
        tag'.children.find? (Node.isAttribute other) =
          tag.children.find? (Node.isAttribute other) := by
  obtain ⟨element', tag', helement', hopening', hassigned⟩ := inline_assigned helement hopening h
  exact ⟨element', tag', helement', hopening', currentStyle_assigned hassigned fun _ => honce,
    fun other hother => hassigned.find?_of_ne (fun _ => isAttribute_of_writtenStyle) hother.symm⟩

/-- The inline style is left as it is, or the changes are made in it. -/
theorem styleEdit?_cases {updates : List StyleUpdate}
    {styleEdit : Option (List StyleEntry × List StyleEntry)}
    (hbefore : currentStyle tag = .ok before) (h : styleEdit? tag updates = .ok styleEdit) :
    (styleEdit = none ∧ updates.foldl updateEntry before = before) ∨
      styleEdit = some (before, updates.foldl updateEntry before) := by
  unfold styleEdit? at h
  split at h
  · next hempty =>
    cases h
    rw [List.isEmpty_iff.mp hempty]
    exact .inl ⟨rfl, rfl⟩
  · rw [hbefore] at h
    obtain ⟨found, hfound, h⟩ := ok_of_bind h
    cases hfound
    dsimp only at h
    split at h
    · next hsame =>
      cases h
      exact .inl ⟨rfl, beq_iff_eq.mp hsame⟩
    · cases h
      exact .inr rfl

/-! ## What becomes of an entry -/

theorem survives_append_cons {front back : List String} {c : String}
    (h : ∀ d ∈ back, ClassList.displaces d c = false) :
    ClassList.Survives (front ++ c :: back) c := by
  induction back using List.reverseRecOn with
  | nil => exact ClassList.survives_concat.mpr (.inr rfl)
  | append_singleton back d ih =>
    have hback := ih fun e he => h e (List.mem_append_left _ he)
    have hd := h d (List.mem_append_right _ (List.mem_singleton_self d))
    have happend : front ++ c :: (back ++ [d]) = front ++ c :: back ++ [d] := by
      rw [List.append_assoc, List.cons_append]
    rw [happend]
    exact ClassList.survives_concat.mpr (.inl ⟨hback, hd⟩)

/-- Whether properties become classes in a tag: they are preferred, and the classes can be read. -/
def takesClasses (config : Config) (tag : Node) : Bool :=
  config.preferClasses && (currentClasses tag config).isOk

/-- What a tag shows of an entry of a change, from the entries of its inline style before and after.
Its property is to be one that the inline style holds at most once. The class that it becomes is to be
one word without references, and no class of the later entries is to displace it. -/
structure InEffect (config : Config) (classes : Bool) (before after : List StyleEntry) (tag' : Node)
    (entry : String × String) (later : List (String × String)) : Prop where
  /-- Nothing is left for a property without a value. -/
  removed : HeldOnce (changedProperty entry) before → trimmed entry.2 = "" →
    entriesFor (changedProperty entry) after = []
  /-- Nothing is left for a property that became a class. -/
  replaced : HeldOnce (changedProperty entry) before → ∀ token,
    entryClass? classes entry = some token → entriesFor (changedProperty entry) after = []
  /-- The class is among those of the element. -/
  listed : ∀ token, entryClass? classes entry = some token → IsWord token.toList →
    ¬ HoldsReference token.toList →
    (∀ d ∈ later.filterMap (entryClass? classes), ClassList.displaces d token = false) →
    ∃ current, currentClasses tag' config = .ok current ∧ token ∈ ClassList.parse current.value
  /-- Any other value is the one and only value for its property. -/
  held : HeldOnce (changedProperty entry) before → trimmed entry.2 ≠ "" →
    entryClass? classes entry = none →
    (entriesFor (changedProperty entry) after).map Prod.snd = [.text (trimmed entry.2)]

/-- **What the inline style has for an entry after all changes**: nothing if it is blank or became a
class, else its value. -/
theorem values_of_foldl {classes : Bool} {entry : String × String}
    (hkeys : (style.entries.map (fun e => camelCase (changedProperty e))).Nodup)
    (hentry : entry ∈ style.entries) (hstyle : currentStyle tag = .ok before)
    (hafter : after = (style.entries.map (entryUpdate classes)).foldl updateEntry before ∨
      after = ((style.entries.map (entryUpdate classes)).foldl updateEntry before).map readEntry)
    (hheld : HeldOnce (changedProperty entry) before) :
    (entriesFor (changedProperty entry) after).map Prod.snd =
      if trimmed entry.2 = "" ∨ (entryClass? classes entry).isSome then []
      else [.text (trimmed entry.2)] := by
  have hleft : (entryLeft (entryUpdate classes entry)).map Prod.snd =
      if trimmed entry.2 = "" ∨ (entryClass? classes entry).isSome then []
      else [.text (trimmed entry.2)] := by
    rw [entryLeft, entryUpdate]
    split <;> rfl
  rw [← hleft]
  generalize hfold : (style.entries.map (entryUpdate classes)).foldl updateEntry before = folded
    at hafter
  have hfolded : entriesFor (changedProperty entry) folded =
      entryLeft (entryUpdate classes entry) := by
    have hnodup : ((style.entries.map (entryUpdate classes)).map (fun u => camelCase u.1)).Nodup := by
      rw [List.map_map]
      exact hkeys
    rw [← hfold]
    rw [← entryUpdate_fst classes entry] at hheld ⊢
    exact entriesFor_foldl hnodup (List.mem_map_of_mem hentry) hheld
  have hnames : ∀ e ∈ folded, ∃ name, e.1 = kebabCase name := by
    rw [← hfold]
    refine forall_foldl_updateEntry (p := fun name => ∃ x, name = kebabCase x)
      (exists_kebabCase_of_currentStyle hstyle) fun update hupdate => ?_
    obtain ⟨e, -, rfl⟩ := List.mem_map.mp hupdate
    exact ⟨_, rfl⟩
  -- the spelling does not matter
  rcases hafter with rfl | rfl
  · rw [hfolded]
  · rw [entriesFor_map_readEntry hnames, hfolded, List.map_map]
    exact List.map_congr_left fun entry _ => readEntry_snd entry

/-- An entry takes effect if its class is listed, and the inline style is what the changes make it. -/
theorem inEffect_of_foldl {classes : Bool} {entry : String × String}
    {later : List (String × String)}
    (hkeys : (style.entries.map (fun e => camelCase (changedProperty e))).Nodup)
    (hentry : entry ∈ style.entries) (hstyle : currentStyle tag = .ok before)
    (hafter : after = (style.entries.map (entryUpdate classes)).foldl updateEntry before ∨
      after = ((style.entries.map (entryUpdate classes)).foldl updateEntry before).map readEntry)
    (hlisted : ∀ token, entryClass? classes entry = some token → IsWord token.toList →
      ¬ HoldsReference token.toList →
      (∀ d ∈ later.filterMap (entryClass? classes), ClassList.displaces d token = false) →
      ∃ current, currentClasses tag' config = .ok current ∧
        token ∈ ClassList.parse current.value) :
    InEffect config classes before after tag' entry later where
  removed hheld hblank := by
    have hvalues := values_of_foldl hkeys hentry hstyle hafter hheld
    rw [if_pos (.inl hblank)] at hvalues
    exact List.map_eq_nil_iff.mp hvalues
  replaced hheld token htoken := by
    have hvalues := values_of_foldl hkeys hentry hstyle hafter hheld
    rw [if_pos (.inr (Option.isSome_of_eq_some htoken))] at hvalues
    exact List.map_eq_nil_iff.mp hvalues
  listed := hlisted
  held hheld hblank hclass := by
    have hcase : ¬ (trimmed entry.2 = "" ∨ (entryClass? classes entry).isSome = true) := by
      rintro (hempty | hsome)
      · exact hblank hempty
      · rw [hclass] at hsome
        cases hsome
    exact (values_of_foldl hkeys hentry hstyle hafter hheld).trans (if_neg hcase)

/-- **Every entry of a change of properties takes effect.** -/
theorem inEffect_of_editStyle (hvalid : config.validate = .ok config)
    (helement : elementAt tree path = .ok element) (hopening : element.opening? = some tag)
    (hstyle : currentStyle tag = .ok before) (hapart : styleAttribute ∉ config.classAttributes)
    (honce : (tag.children.filter (Node.isAttribute styleAttribute)).length ≤ 1)
    (hkeys : (style.entries.map (fun e => camelCase (changedProperty e))).Nodup)
    (h : editStyle tree path ⟨none, [], [], style⟩ config = .ok (edited, changes)) :
    ∃ element' tag' after, elementAt edited path = .ok element' ∧ element'.opening? = some tag' ∧
      currentStyle tag' = .ok after ∧
      ∀ front entry later, style.entries = front ++ entry :: later →
        InEffect config (takesClasses config tag) before after tag' entry later := by
  obtain ⟨found, hfound, h⟩ := ok_of_bind h
  obtain rfl : element = found := Except.ok.inj (helement.symm.trans hfound)
  rw [hopening] at h
  dsimp only at h
  rw [StylePlan.of_eq, ← takesClasses] at h
  generalize hclasses : takesClasses config tag = classes at h
  obtain ⟨classEdit, hclassEdit, h⟩ := ok_of_bind h
  obtain ⟨styleEdit, hstyleEdit, h⟩ := ok_of_bind h
  obtain ⟨⟨between, classChanges⟩, hfirst, h⟩ := ok_of_bind h
  obtain ⟨⟨last, styleChanges⟩, hsecond, h⟩ := ok_of_bind h
  cases h
  obtain ⟨element₁, tag₁, helement₁, hopening₁, hothers, hlisted⟩ :=
    classes_step hvalid helement hopening hclassEdit hfirst
  have hsame := hothers styleAttribute hapart
  have hstyle₁ : currentStyle tag₁ = .ok before := by
    rw [currentStyle, ← List.head?_filter, hsame, List.head?_filter]
    exact hstyle
  -- whether the inline style is written or not, its entries and the classes are what was planned
  obtain ⟨element', tag', after, helement', hopening', hread, hafter, hkept⟩ :
      ∃ element' tag' after, elementAt last path = .ok element' ∧
        element'.opening? = some tag' ∧ currentStyle tag' = .ok after ∧
        (after = (style.entries.map (entryUpdate classes)).foldl updateEntry before ∨
          after =
            ((style.entries.map (entryUpdate classes)).foldl updateEntry before).map readEntry) ∧
        currentClasses tag' config = currentClasses tag₁ config := by
    rcases styleEdit?_cases hstyle hstyleEdit with ⟨rfl, hunchanged⟩ | rfl
    · cases hsecond
      exact ⟨element₁, tag₁, before, helement₁, hopening₁, hstyle₁, .inl hunchanged.symm, rfl⟩
    · obtain ⟨element', tag', helement', hopening', hread, hfind⟩ :=
        inline_step helement₁ hopening₁ (by rwa [hsame]) hsecond
      exact ⟨element', tag', _, helement', hopening', hread, .inr rfl,
        currentClasses_congr fun name hname => hfind name fun heq => hapart (heq ▸ hname)⟩
  refine ⟨element', tag', after, helement', hopening', hread, fun front entry later hentries => ?_⟩
  have hmem : entry ∈ style.entries := by
    rw [hentries]
    exact List.mem_append_right _ List.mem_cons_self
  refine inEffect_of_foldl hkeys hmem hstyle hafter fun token htoken hword hnone hlater => ?_
  rw [hkept]
  refine hlisted token ?_ hword hnone
  rw [hentries, List.filterMap_append, List.filterMap_cons_some htoken]
  exact survives_append_cons hlater

/-! ## One element with a style -/

/-- An element without content, and some attributes. -/
def bareElement (attributes : List Node) : Node :=
  .branch .jsxSelfClosingElement
    ([.token "<", (Node.leaf .identifier "p").withField "name"] ++ (attributes ++ [.token "/>"]))

/-- A program that is one such element. -/
def bareTree (attributes : List Node) : SourceTree where
  root := .branch .program
    [.branch (.other "expression_statement") [bareElement attributes, .token ";"]]
  before := ""
  after := ""
  language := .tsx

/-- The attribute of the inline style, as a text. -/
def quotedStyle (text : String) : Node :=
  .markupAttribute styleAttribute (some (.attributeValue text))

/-- The program after a change of properties of its element; if that fails, as it is. -/
def restyled (config : Config) (attributes : List Node) (properties : List (String × String)) :
    SourceTree :=
  match editStyle (bareTree attributes) [0, 0] ⟨none, [], [], .ofList properties⟩ config with
  | .ok (edited, _) => edited
  | .error _ => bareTree attributes

theorem editStyle_restyled {attributes : List Node} {properties : List (String × String)}
    (h : (editStyle (bareTree attributes) [0, 0] ⟨none, [], [], .ofList properties⟩ config).isOk =
      true) :
    ∃ changes, editStyle (bareTree attributes) [0, 0] ⟨none, [], [], .ofList properties⟩ config =
      .ok (restyled config attributes properties, changes) := by
  unfold restyled
  cases hedit : editStyle (bareTree attributes) [0, 0] ⟨none, [], [], .ofList properties⟩ config with
  | error fault =>
    rw [hedit] at h
    cases h
  | ok result => exact ⟨result.2, rfl⟩

theorem inEffect_of_editStyle_bare :
    (bareTree [quotedStyle "color: red"]).toSource = "<p style=\"color: red\"/>;" ∧
      (restyled {} [quotedStyle "color: red"]
        [("bottom", "8px"), ("color", ""), ("foo", "1")]).toSource =
        "<p style=\x7b\x7b foo: \"1\" \x7d\x7d className=\"bottom-2\"/>;" ∧
      ∃ element' tag' after,
        elementAt (restyled {} [quotedStyle "color: red"]
          [("bottom", "8px"), ("color", ""), ("foo", "1")]) [0, 0] = .ok element' ∧
        element'.opening? = some tag' ∧ currentStyle tag' = .ok after ∧
        ∀ front entry later, [("bottom", "8px"), ("color", ""), ("foo", "1")] =
            front ++ entry :: later →
          InEffect {} true [("color", .text "red")] after tag' entry later := by
  have hentries : (TextMap.ofList [("bottom", "8px"), ("color", ""), ("foo", "1")]).entries =
      [("bottom", "8px"), ("color", ""), ("foo", "1")] := by decide +kernel
  have hstyle : currentStyle (bareElement [quotedStyle "color: red"]) =
      .ok [("color", .text "red")] := by decide +kernel
  have hclasses : takesClasses {} (bareElement [quotedStyle "color: red"]) = true := by
    decide +kernel
  have helement : elementAt (bareTree [quotedStyle "color: red"]) [0, 0] =
      .ok (bareElement [quotedStyle "color: red"]) := rfl
  have hedit : ∃ changes, editStyle (bareTree [quotedStyle "color: red"]) [0, 0]
      ⟨none, [], [], .ofList [("bottom", "8px"), ("color", ""), ("foo", "1")]⟩ {} =
      .ok (restyled {} [quotedStyle "color: red"]
        [("bottom", "8px"), ("color", ""), ("foo", "1")], changes) :=
    editStyle_restyled (by decide +kernel)
  obtain ⟨changes, hedit⟩ := hedit
  refine ⟨by decide +kernel, by decide +kernel, ?_⟩
  rw [← hclasses, ← hentries]
  exact inEffect_of_editStyle (by decide +kernel) helement rfl hstyle (by decide)
    (by decide +kernel) (by decide +kernel) hedit

/-- The classes that are read of the element of such a program. -/
def classesIn (config : Config) (tree : SourceTree) : Option (Except EditFault CurrentClasses) :=
  ((tree.get [0, 0]).bind Node.opening?).map (currentClasses · config)

/-- The inline style that is read of it. -/
def stylesIn (tree : SourceTree) : Option (Except EditFault (List StyleEntry)) :=
  ((tree.get [0, 0]).bind Node.opening?).map currentStyle

/-- **Entries that take no effect.** The first is how classes are merged: `bottom` became a class, and
the class of `inset`, which comes later, takes it away. The others are what `inEffect_of_editStyle` asks
for: a property that was there twice, two attributes for the inline style, two properties with one key,
classes in the attribute of the inline style, and classes with a blank or with a reference in them. -/
theorem entries_without_effect :
    (entryClass? true ("bottom", "8px") = some "bottom-2" ∧
      classesIn {} (restyled {} [] [("bottom", "8px"), ("inset", "16px")]) =
        some (.ok ⟨"className", "inset-4"⟩) ∧ "bottom-2" ∉ ClassList.parse "inset-4") ∧
    stylesIn (restyled {} [quotedStyle "color: red; color: blue"] [("color", "")]) =
      some (.ok [("color", .text "blue")]) ∧
    stylesIn (restyled {} [quotedStyle "color: red", quotedStyle "color: blue"] [("color", "")]) =
      some (.ok [("color", .text "blue")]) ∧
    stylesIn (restyled {} [] [("a-1", "x"), ("a1", "y")]) =
      some (.ok [("a1", .text "x"), ("a1", .text "y")]) ∧
    (entryClass? true ("color", "blue") = some "text-[blue]" ∧
      (restyled { classAttributes := [styleAttribute] } [quotedStyle "color: red"]
        [("color", "blue")]).toSource = "<p/>;") ∧
    (entryClass? true ("color", "a\tb") = some "text-[a\tb]" ∧
      (classesIn {} (restyled {} [] [("color", "a\tb")])).map
        (fun read => read.map (fun current => ClassList.parse current.value)) =
          some (.ok ["text-[a", "b]"])) ∧
    (entryClass? true ("background", "url(a&amp;b)") = some "bg-[url(a&amp;b)]" ∧
      classesIn {} (restyled {} [] [("background", "url(a&amp;b)")]) =
        some (.ok ⟨"className", "bg-[url(a&b)]"⟩)) := by
  refine ⟨⟨?_, ?_, ?_⟩, ?_, ?_, ?_, ⟨?_, ?_⟩, ⟨?_, ?_⟩, ?_, ?_⟩ <;> decide +kernel

end MarkupEdit.Edit
