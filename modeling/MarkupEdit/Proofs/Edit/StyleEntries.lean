import MarkupEdit.Proofs.Edit.Assignment
import MarkupEdit.Proofs.Style.Spelling

/-!
# Entries of an inline style

An inline style is written as an object with a key for each entry, and it is read as it was written but
for the spelling of the properties. Two spellings of one key are one property. A change of a property
changes what there is for it and nothing else.

* `readEntry`: an entry as it is read after it was written.
* `currentStyle_styleNode`: **what is read of an inline style that was written.**
* `reads_of_currentStyle`: **the entries of an inline style are read one by one.**
* `entriesFor`: the entries for a property; `HeldOnce`: there is at most one, under its own name.
* `entriesFor_foldl`: **what there is for a property after several changes**, one of them its own.
* `StylePlan.of_eq`: the classes and the changes that a style comes to, entry by entry.
-/

namespace MarkupEdit.Edit

open MarkupEdit.Text MarkupEdit.Tree MarkupEdit.Style

variable {c tag : Node} {property value : String} {entries before : List StyleEntry}
  {update : StyleUpdate} {updates : List StyleUpdate}

/-! ## Writing and reading -/

theorem mapM_eq_ok {ε α β : Type} {f : α → Except ε β} {g : α → β} {l : List α}
    (h : ∀ a ∈ l, f a = .ok (g a)) : l.mapM f = .ok (l.map g) := by
  induction l with
  | nil => rfl
  | cons a l ih =>
    rw [List.mapM_cons, h a List.mem_cons_self, ih fun b hb => h b (List.mem_cons_of_mem _ hb)]
    rfl

theorem forall₂_of_mapM {ε α β : Type} {f : α → Except ε β} {l : List α} {r : List β}
    (h : l.mapM f = .ok r) : List.Forall₂ (fun a b => f a = .ok b) l r := by
  induction l generalizing r with
  | nil =>
    cases h
    exact .nil
  | cons a l ih =>
    rw [List.mapM_cons] at h
    obtain ⟨b, hb, h⟩ := ok_of_bind h
    obtain ⟨rest, hrest, h⟩ := ok_of_bind h
    cases h
    exact .cons hb (ih hrest)

/-- An entry as it is read after it was written: its property is spelled as its key is read. -/
def readEntry (entry : StyleEntry) : StyleEntry := (kebabCase (camelCase entry.1), entry.2)

theorem readEntry_snd (entry : StyleEntry) : (readEntry entry).2 = entry.2 := by rw [readEntry]

theorem namedChildren_objectLiteral (entries : List (String × Node)) :
    (Node.objectLiteral entries).namedChildren =
      entries.map (fun entry => Node.objectEntry entry.1 entry.2) := by
  have hentries : (Node.objectEntries entries).filter Node.isNamed =
      entries.map (fun entry => Node.objectEntry entry.1 entry.2) := by
    induction entries with
    | nil => rfl
    | cons entry rest ih =>
      cases rest with
      | nil => rfl
      | cons next rest =>
        rw [Node.objectEntries, List.filter_cons_of_pos rfl, List.filter_cons_of_neg (by decide), ih]
        · rfl
        · exact List.cons_ne_nil _ _
  have hclose : ∀ leading, ((Node.token "\x7d").withLeading leading).isNamed = false := fun _ => rfl
  rw [Node.namedChildren, Node.objectLiteral, Node.branch, List.filter_cons_of_neg (by decide),
    List.filter_append, hentries, List.filter_cons_of_neg, List.filter_nil, List.append_nil]
  split <;> decide

/-- A number is no literal that is read as a text. -/
theorem staticValue?_number (source : String) :
    (Node.leaf (.other "number") source).staticValue? = none := by
  rw [Node.staticValue?, Node.leaf]
  dsimp only
  split <;> rfl

theorem keyText?_objectEntry (key : String) (value : Node) :
    keyText? (.objectEntry key value) = some key := by
  have hkey : (Node.objectEntry key value).childByField? "key" =
      some ((if Node.isPlainKey key then Node.leaf .propertyIdentifier key
        else Node.stringLiteral key '"').withField "key") := rfl
  rw [keyText?, hkey]
  dsimp only [Option.bind_some]
  refine (if_neg (fun h => nomatch h)).trans ?_
  split
  · rfl
  · rw [staticValue?_withField, staticValue?_stringLiteral (.inl rfl)]
    exact if_neg fun h => nomatch h

theorem childByField?_objectEntry (key : String) (value : Node) :
    (Node.objectEntry key value).childByField? "value" =
      some ((value.withLeading " ").withField "value") := by
  rw [Node.childByField?, Node.objectEntry]
  dsimp only [Node.branch, Node.withLeading]
  rw [List.find?_cons_of_neg, List.find?_cons_of_neg, List.find?_cons_of_pos]
  · rfl
  · decide
  · exact Bool.false_ne_true

theorem body_number (source : String) :
    (((StyleValue.number source).node.withLeading " ").withField "value").body = source := by
  rw [Node.body_eq]
  exact String.append_empty

/-- **An entry is read as it was written**, but for the spelling of its property. -/
theorem pairEntry_objectEntry (property : String) (value : StyleValue) :
    pairEntry (.objectEntry (camelCase property) value.node) =
      .ok (kebabCase (camelCase property), value) := by
  rw [pairEntry, keyText?_objectEntry, childByField?_objectEntry]
  dsimp only
  cases value with
  | text value =>
    have hstatic : (((StyleValue.text value).node.withLeading " ").withField "value").staticValue? =
        some value := by
      rw [staticValue?_withField, staticValue?_withLeading, StyleValue.node,
        staticValue?_stringLiteral (.inl rfl)]
    rw [hstatic]
  | number source =>
    have hstatic : (((StyleValue.number source).node.withLeading " ").withField "value").staticValue? =
        none := by
      rw [staticValue?_withField, staticValue?_withLeading, StyleValue.node, staticValue?_number]
    rw [hstatic]
    dsimp only
    rw [body_number]
    rfl

/-- **An inline style that was written** is an object with a pair for each entry. -/
theorem exists_object_of_styleNode (hchildren : c.children = (styleNode entries).children) :
    ∃ value object, c.attributeValueNode? = some value ∧
      attributeContent c = .evaluated value.body ∧ bracedObject? value = some object ∧
      object.namedChildren =
        entries.map (fun entry => Node.objectEntry (camelCase entry.1) entry.2.node) := by
  generalize hobject : Node.objectLiteral (entries.map (fun entry =>
    (camelCase entry.1, entry.2.node))) = object at hchildren
  have hvalue : c.attributeValueNode? = some ((Node.markupExpression object).withLeading "") := by
    rw [Node.attributeValueNode?, hchildren, ← hobject]
    rfl
  have hnamed : object.isNamed = true := by rw [← hobject]; rfl
  refine ⟨(Node.markupExpression object).withLeading "", object.withLeading "", hvalue, ?_, ?_, ?_⟩
  · have htext : bracedText? ((Node.markupExpression object).withLeading "") = none := by
      refine (bracedText?_markupExpression hnamed).trans ?_
      rw [← hobject]
      rfl
    rw [attributeContent_of_expression hvalue rfl, htext]
    rfl
  · have hinner : ((Node.markupExpression object).withLeading "").namedChildren =
      [object.withLeading ""] := namedChildren_markupExpression hnamed
    rw [bracedObject?, hinner, ← hobject]
    rfl
  · rw [← hobject]
    exact (namedChildren_objectLiteral _).trans List.map_map

/-- **What is read of an inline style that was written.** -/
theorem currentStyle_styleNode
    (hfind : tag.children.find? (Node.isAttribute styleAttribute) = some c)
    (hchildren : c.children = (styleNode entries).children) :
    currentStyle tag = .ok (entries.map readEntry) := by
  obtain ⟨value, object, hvalue, hcontent, hbraced, hpairs⟩ := exists_object_of_styleNode hchildren
  rw [currentStyle, hfind]
  dsimp only
  rw [hcontent, hvalue]
  dsimp only [Option.bind_some]
  rw [hbraced]
  dsimp only
  rw [hpairs, List.mapM_map]
  refine mapM_eq_ok fun entry _ => ?_
  rw [Function.comp_apply, pairEntry_objectEntry, readEntry]

/-! ## Where entries are read from -/

/-- What an entry is read from: a declaration of a text, or a pair of an object. -/
inductive Source where
  | declared (text : List Char)
  | paired (pair : Node)

/-- The name that is given there. -/
def Source.name? : Source → Option String
  | declared text => (splitFirst? (· == ':') text).map (fun cut => trimmed (String.ofList cut.1))
  | paired pair => keyText? pair

/-- The pairs of the inline style of a tag, if it is an object. -/
def stylePairs (tag : Node) : List Node :=
  (((tag.children.find? (Node.isAttribute styleAttribute)).bind (·.attributeValueNode?)).bind
    bracedObject?).elim [] Node.namedChildren

/-- What the entries of the inline style of a tag are read from. -/
def sources (tag : Node) : List Source :=
  match tag.children.find? (Node.isAttribute styleAttribute) with
  | none => []
  | some style =>
    match attributeContent style with
    | .present => []
    | .static text =>
      ((declarationTexts .outside text.toList).filter (fun piece => !piece.all isBlank)).map
        .declared
    | .evaluated _ => (stylePairs tag).map .paired

theorem stylePairs_styleNode
    (hfind : tag.children.find? (Node.isAttribute styleAttribute) = some c)
    (hchildren : c.children = (styleNode entries).children) :
    stylePairs tag =
      entries.map (fun entry => Node.objectEntry (camelCase entry.1) entry.2.node) := by
  obtain ⟨value, object, hvalue, -, hbraced, hpairs⟩ := exists_object_of_styleNode hchildren
  rw [stylePairs, hfind, Option.bind_some, hvalue, Option.bind_some, hbraced]
  exact hpairs

/-- **What is read**: the name with hyphens, and a text or a number. -/
inductive Reads : Source → StyleEntry → Prop where
  | declared {text name value : List Char} (h : splitFirst? (· == ':') text = some (name, value)) :
      Reads (.declared text)
        (kebabCase (trimmed (String.ofList name)), .text (trimmed (String.ofList value)))
  | text {pair value : Node} {key text : String} (hkey : keyText? pair = some key)
      (hvalue : pair.childByField? "value" = some value) (htext : value.staticValue? = some text) :
      Reads (.paired pair) (kebabCase key, .text text)
  | number {pair value : Node} {key : String} (hkey : keyText? pair = some key)
      (hvalue : pair.childByField? "value" = some value) (hnumber : value.kind = .other "number") :
      Reads (.paired pair) (kebabCase key, .number value.body)

theorem Reads.exists_name {source : Source} {entry : StyleEntry} (h : Reads source entry) :
    ∃ name, source.name? = some name ∧ entry.1 = kebabCase name := by
  cases h with
  | declared h => exact ⟨_, congrArg (Option.map _) h, rfl⟩
  | text hkey _ _ => exact ⟨_, hkey, rfl⟩
  | number hkey _ _ => exact ⟨_, hkey, rfl⟩

theorem reads_of_parseChars {s : List Char} {d : Declaration}
    (h : Declaration.parseChars s = .ok d) : Reads (.declared s) (d.property, .text d.value) := by
  unfold Declaration.parseChars at h
  split at h
  · cases h
  next name value hcut =>
  split at h
  · cases h
  · rw [Except.ok.injEq] at h
    rw [← h]
    exact .declared hcut

theorem reads_of_pairEntry {pair : Node} {entry : StyleEntry} (h : pairEntry pair = .ok entry) :
    Reads (.paired pair) entry := by
  unfold pairEntry at h
  split at h
  · next key value hkey hvalue =>
    split at h
    · next text htext =>
      cases h
      exact .text hkey hvalue htext
    split at h
    · next hnumber =>
      cases h
      exact .number hkey hvalue (beq_iff_eq.mp hnumber)
    · cases h
  · cases h

/-- **The entries of an inline style are read one by one.** -/
theorem reads_of_currentStyle (h : currentStyle tag = .ok entries) :
    List.Forall₂ Reads (sources tag) entries := by
  unfold currentStyle at h
  unfold sources
  cases hfind : tag.children.find? (Node.isAttribute styleAttribute) with
  | none =>
    rw [hfind] at h
    cases h
    exact .nil
  | some style =>
    rw [hfind] at h
    dsimp only at h ⊢
    cases hcontent : attributeContent style with
    | present =>
      rw [hcontent] at h
      cases h
      exact .nil
    | static text =>
      rw [hcontent] at h
      dsimp only at h ⊢
      unfold textEntries at h
      split at h
      · next declarations hparse =>
        cases h
        rw [List.forall₂_map_left_iff, List.forall₂_map_right_iff]
        exact (forall₂_of_mapM hparse).imp fun _ _ => reads_of_parseChars
      · cases h
    | evaluated source =>
      rw [hcontent] at h
      dsimp only at h ⊢
      split at h
      · next object hobject =>
        have hpairs : stylePairs tag = object.namedChildren := by
          rw [stylePairs, hfind, Option.bind_some, hobject]
          rfl
        rw [hpairs, List.forall₂_map_left_iff]
        exact (forall₂_of_mapM h).imp fun _ _ => reads_of_pairEntry
      · cases h

/-- **What is read has names with hyphens.** -/
theorem exists_kebabCase_of_currentStyle (h : currentStyle tag = .ok entries) :
    ∀ entry ∈ entries, ∃ name, entry.1 = kebabCase name := by
  have hreads := reads_of_currentStyle h
  clear h
  generalize sources tag = origins at hreads
  induction hreads with
  | nil => exact fun _ hentry => absurd hentry List.not_mem_nil
  | cons hread _ ih =>
    obtain ⟨name, -, hname⟩ := hread.exists_name
    exact List.forall_mem_cons.mpr ⟨⟨name, hname⟩, ih⟩

/-! ## Entries for one property -/

/-- The entries for a property: those with its key. -/
def entriesFor (property : String) (entries : List StyleEntry) : List StyleEntry :=
  entries.filter (fun entry => camelCase entry.1 == camelCase property)

/-- There is at most one entry for a property, and it has its name. -/
def HeldOnce (property : String) (entries : List StyleEntry) : Prop :=
  entriesFor property entries = [] ∨ ∃ value, entriesFor property entries = [(property, value)]

theorem entriesFor_cons_of_eq {entry : StyleEntry} (h : camelCase entry.1 = camelCase property) :
    entriesFor property (entry :: entries) = entry :: entriesFor property entries :=
  List.filter_cons_of_pos (beq_iff_eq.mpr h)

theorem entriesFor_cons_of_ne {entry : StyleEntry} (h : camelCase entry.1 ≠ camelCase property) :
    entriesFor property (entry :: entries) = entriesFor property entries :=
  List.filter_cons_of_neg (by simpa using h)

/-- An entry with the key of a property that is held once is all there is for it. -/
theorem HeldOnce.cons {entry : StyleEntry} (h : HeldOnce property (entry :: entries)) :
    (entry.1 = property ∧ entriesFor property entries = []) ∨
      (camelCase entry.1 ≠ camelCase property ∧ HeldOnce property entries) := by
  by_cases hkey : camelCase entry.1 = camelCase property
  · rw [HeldOnce, entriesFor_cons_of_eq hkey] at h
    rcases h with h | ⟨value, h⟩
    · cases h
    · obtain ⟨rfl, hrest⟩ := List.cons.inj h
      exact .inl ⟨rfl, hrest⟩
  · rw [HeldOnce, entriesFor_cons_of_ne hkey] at h
    exact .inr ⟨hkey, h⟩

/-- The entry that a change leaves for its property. -/
def entryLeft (update : StyleUpdate) : List StyleEntry :=
  (update.2.map (fun value => (update.1, StyleValue.text value))).toList

theorem updateEntry_nil (update : StyleUpdate) : updateEntry [] update = entryLeft update := by
  obtain ⟨name, value⟩ := update
  cases value <;> rfl

/-- **A change replaces the first entry for its property**, or comes behind all entries. -/
theorem updateEntry_cons (entry : StyleEntry) (entries : List StyleEntry) (update : StyleUpdate) :
    updateEntry (entry :: entries) update =
      if entry.1 = update.1 then entryLeft update ++ entries
      else entry :: updateEntry entries update := by
  obtain ⟨name, value⟩ := update
  by_cases hname : entry.1 = name
  · have hname' : (entry.1 == name) = true := beq_iff_eq.mpr hname
    rw [if_pos hname]
    cases value with
    | none => exact if_pos hname'
    | some value => exact if_pos hname'
  · have hname' : ¬ (entry.1 == name) = true := fun heq => hname (beq_iff_eq.mp heq)
    rw [if_neg hname]
    cases value with
    | none => exact if_neg hname'
    | some value => exact if_neg hname'

theorem mem_entryLeft {entry : StyleEntry} (h : entry ∈ entryLeft update) : entry.1 = update.1 := by
  obtain ⟨value, -, rfl⟩ := Option.map_eq_some_iff.mp (Option.mem_toList.mp h)
  rfl

theorem entriesFor_append (property : String) (l r : List StyleEntry) :
    entriesFor property (l ++ r) = entriesFor property l ++ entriesFor property r :=
  List.filter_append l r

theorem entriesFor_entryLeft (update : StyleUpdate) :
    entriesFor update.1 (entryLeft update) = entryLeft update :=
  List.filter_eq_self.mpr fun entry hentry => by rw [mem_entryLeft hentry, beq_self_eq_true]

theorem entriesFor_entryLeft_of_ne (h : camelCase update.1 ≠ camelCase property) :
    entriesFor property (entryLeft update) = [] :=
  List.filter_eq_nil_iff.mpr fun entry hentry => by rwa [mem_entryLeft hentry, beq_iff_eq]

/-- **A change of a property is what there is for it then.** -/
theorem entriesFor_updateEntry (h : HeldOnce update.1 entries) :
    entriesFor update.1 (updateEntry entries update) = entryLeft update := by
  induction entries with
  | nil => rw [updateEntry_nil, entriesFor_entryLeft]
  | cons entry rest ih =>
    rw [updateEntry_cons]
    rcases h.cons with ⟨hname, hrest⟩ | ⟨hkey, hrest⟩
    · rw [if_pos hname, entriesFor_append, entriesFor_entryLeft, hrest, List.append_nil]
    · rw [if_neg fun heq => hkey (by rw [heq]), entriesFor_cons_of_ne hkey, ih hrest]

/-- A change of another property changes nothing of it. -/
theorem entriesFor_updateEntry_of_ne (h : camelCase update.1 ≠ camelCase property) :
    entriesFor property (updateEntry entries update) = entriesFor property entries := by
  induction entries with
  | nil => rw [updateEntry_nil, entriesFor_entryLeft_of_ne h]; rfl
  | cons entry rest ih =>
    rw [updateEntry_cons]
    split
    · next hname =>
      rw [entriesFor_append, entriesFor_entryLeft_of_ne h, entriesFor_cons_of_ne (by rwa [hname])]
      rfl
    · by_cases hkey : camelCase entry.1 = camelCase property
      · rw [entriesFor_cons_of_eq hkey, entriesFor_cons_of_eq hkey, ih]
      · rw [entriesFor_cons_of_ne hkey, entriesFor_cons_of_ne hkey, ih]

theorem entriesFor_foldl_of_ne
    (h : ∀ update ∈ updates, camelCase update.1 ≠ camelCase property) :
    entriesFor property (updates.foldl updateEntry entries) = entriesFor property entries := by
  induction updates generalizing entries with
  | nil => rfl
  | cons update rest ih =>
    rw [List.foldl_cons, ih fun u hu => h u (List.mem_cons_of_mem _ hu),
      entriesFor_updateEntry_of_ne (h update List.mem_cons_self)]

/-- **What there is for a property after several changes**, one of them its own. -/
theorem entriesFor_foldl (hkeys : (updates.map (fun u => camelCase u.1)).Nodup)
    (hmem : update ∈ updates) (h : HeldOnce update.1 entries) :
    entriesFor update.1 (updates.foldl updateEntry entries) = entryLeft update := by
  obtain ⟨front, back, rfl⟩ := List.append_of_mem hmem
  rw [List.map_append, List.map_cons] at hkeys
  obtain ⟨-, hback, hdisjoint⟩ := List.nodup_append.mp hkeys
  have hfront : ∀ u ∈ front, camelCase u.1 ≠ camelCase update.1 := fun u hu =>
    hdisjoint _ (List.mem_map_of_mem hu) _ List.mem_cons_self
  have hbehind : ∀ u ∈ back, camelCase u.1 ≠ camelCase update.1 := fun u hu heq =>
    (List.nodup_cons.mp hback).1 (List.mem_map.mpr ⟨u, hu, heq⟩)
  -- only the change of the property itself matters
  rw [List.foldl_append, List.foldl_cons, entriesFor_foldl_of_ne hbehind, entriesFor_updateEntry]
  rwa [HeldOnce, entriesFor_foldl_of_ne hfront]

theorem mem_updateEntry {entry : StyleEntry} (h : entry ∈ updateEntry entries update) :
    entry ∈ entries ∨ entry.1 = update.1 := by
  induction entries with
  | nil =>
    rw [updateEntry_nil] at h
    exact .inr (mem_entryLeft h)
  | cons first rest ih =>
    rw [updateEntry_cons] at h
    split at h
    · rcases List.mem_append.mp h with h | h
      · exact .inr (mem_entryLeft h)
      · exact .inl (List.mem_cons_of_mem _ h)
    · rcases List.mem_cons.mp h with rfl | h
      · exact .inl List.mem_cons_self
      · exact (ih h).imp_left (List.mem_cons_of_mem _)

/-- Changes bring no names but their own. -/
theorem forall_foldl_updateEntry {p : String → Prop} (hentries : ∀ entry ∈ entries, p entry.1)
    (hupdates : ∀ update ∈ updates, p update.1) :
    ∀ entry ∈ updates.foldl updateEntry entries, p entry.1 := by
  induction updates generalizing entries with
  | nil => exact hentries
  | cons update rest ih =>
    refine ih (fun entry hentry => ?_) fun u hu => hupdates u (List.mem_cons_of_mem _ hu)
    rcases mem_updateEntry hentry with hentry | hname
    · exact hentries entry hentry
    · rw [hname]
      exact hupdates update List.mem_cons_self

/-- Reading what was written takes no entry from its property. -/
theorem entriesFor_map_readEntry
    (h : ∀ entry ∈ entries, ∃ name, entry.1 = kebabCase name) (property : String) :
    entriesFor property (entries.map readEntry) =
      (entriesFor property entries).map readEntry := by
  rw [entriesFor, entriesFor, List.filter_map]
  refine congrArg _ (List.filter_congr fun entry hentry => ?_)
  obtain ⟨name, hname⟩ := h entry hentry
  have hkey : camelCase (readEntry entry).1 = camelCase entry.1 := by
    rw [readEntry, hname, camelCase_kebabCase_camelCase]
  rw [Function.comp_apply, hkey]

/-! ## What a style comes to -/

/-- The property that an entry of a style is about. -/
def changedProperty (entry : String × String) : String := kebabCase (trimmed entry.1)

/-- The class that an entry of a style becomes. -/
def entryClass? (preferClasses : Bool) (entry : String × String) : Option String :=
  if preferClasses then utilityClass? (changedProperty entry) (trimmed entry.2) else none

/-- The change of the inline style that an entry of a style comes to. -/
def entryUpdate (preferClasses : Bool) (entry : String × String) : StyleUpdate :=
  (changedProperty entry,
    if trimmed entry.2 = "" ∨ (entryClass? preferClasses entry).isSome then none
    else some (trimmed entry.2))

theorem entryUpdate_fst (preferClasses : Bool) (entry : String × String) :
    (entryUpdate preferClasses entry).1 = changedProperty entry := by rw [entryUpdate]

theorem utilityClass?_empty (property : String) : utilityClass? property "" = none := by
  rw [utilityClass?]
  rfl

/-- **One entry adds its class, if it has one, and its change.** -/
theorem StylePlan.add_eq (preferClasses : Bool) (plan : StylePlan) (entry : String × String) :
    plan.add preferClasses entry =
      ⟨plan.utility ++ (entryClass? preferClasses entry).toList,
        plan.updates ++ [entryUpdate preferClasses entry]⟩ := by
  rw [StylePlan.add, entryUpdate, entryClass?, changedProperty]
  by_cases hblank : trimmed entry.2 = ""
  · rw [hblank, utilityClass?_empty, ite_self]
    exact congrArg (StylePlan.mk · _) (List.append_nil _).symm
  · have hvalue : ¬ (trimmed entry.2 == "") = true := by simpa using hblank
    rw [if_neg hvalue]
    cases (if preferClasses then
        utilityClass? (kebabCase (trimmed entry.1)) (trimmed entry.2) else none) with
    | none =>
      rw [if_neg (by simpa using hblank)]
      exact congrArg (StylePlan.mk · _) (List.append_nil _).symm
    | some token =>
      rw [if_pos (by simp)]
      rfl

/-- **The classes and the changes that a style comes to**, entry by entry. -/
theorem StylePlan.of_eq (preferClasses : Bool) (style : TextMap) :
    StylePlan.of preferClasses style =
      ⟨style.entries.filterMap (entryClass? preferClasses),
        style.entries.map (entryUpdate preferClasses)⟩ := by
  have hfold : ∀ (l : List (String × String)) (plan : StylePlan),
      l.foldl (StylePlan.add preferClasses) plan =
        ⟨plan.utility ++ l.filterMap (entryClass? preferClasses),
          plan.updates ++ l.map (entryUpdate preferClasses)⟩ := by
    intro l
    induction l with
    | nil =>
      intro plan
      rw [List.filterMap_nil, List.map_nil, List.append_nil, List.append_nil]
      rfl
    | cons entry rest ih =>
      intro plan
      rw [List.foldl_cons, ih, StylePlan.add_eq, List.append_assoc, List.append_assoc,
        List.filterMap_cons]
      cases entryClass? preferClasses entry <;> rfl
  exact hfold style.entries ⟨[], []⟩

end MarkupEdit.Edit
