import MarkupEdit.Text.TextMap
import MarkupEdit.Wire.Record

/-!
# Records that are read back

A record is written with its members under different names, so each field finds its own member, and
an optional one that was left out finds none.

* `ReadsBack`: a reader that takes what a writer makes.
* `ReadsBack.optional`, `ReadsBack.list`: options and lists of what is read back.
* `fields?_record`: **the fields of a record are the members that it was written with**, whatever
  stands in front of them.
-/

namespace MarkupEdit.Text

/-- An entry behind all others goes to the end. -/
theorem insertEntry_of_lt {key value : String} {entries : List (String × String)}
    (h : ∀ e ∈ entries, e.1 < key) : insertEntry key value entries = entries ++ [(key, value)] := by
  induction entries with
  | nil => rfl
  | cons entry rest ih =>
    have hlt : entry.1 < key := h entry List.mem_cons_self
    have hnot : ¬ key < entry.1 := fun hgt => String.lt_irrefl _ (String.lt_trans hlt hgt)
    have hne : key ≠ entry.1 := fun heq => String.lt_irrefl key (heq ▸ hlt)
    rw [insertEntry, if_neg hnot, if_neg hne, ih fun e he => h e (List.mem_cons_of_mem _ he)]
    rfl

/-- Entries that come in the order of their keys are added behind one another. -/
theorem TextMap.foldl_insert {back : List (String × String)} (m : TextMap)
    (h : IsSorted (m.entries ++ back)) :
    (back.foldl (fun m entry => m.insert entry.1 entry.2) m).entries = m.entries ++ back := by
  induction back generalizing m with
  | nil => exact (List.append_nil m.entries).symm
  | cons entry back ih =>
    have hlast : (m.insert entry.1 entry.2).entries = m.entries ++ [entry] :=
      insertEntry_of_lt fun e he => (List.pairwise_append.mp h).2.2 e he entry List.mem_cons_self
    have hinsert := ih (m.insert entry.1 entry.2)
    rw [hlast, List.append_assoc, List.singleton_append] at hinsert
    rw [List.foldl_cons, hinsert h]

/-- **A map is the map of its entries.** -/
theorem TextMap.ofList_entries (m : TextMap) : ofList m.entries = m :=
  ext_entries (foldl_insert empty m.isSorted)

end MarkupEdit.Text

namespace MarkupEdit.Wire

open Json

variable {α : Type} {encode : α → Json} {decode? : Reader α}

/-- A reader takes what a writer makes, which is never null. -/
structure ReadsBack (encode : α → Json) (decode? : Reader α) : Prop where
  decode_encode : ∀ a, decode? (encode a) = some a
  encode_ne_null : ∀ a, encode a ≠ null

namespace ReadsBack

theorem string : ReadsBack Json.string string? := ⟨fun _ => rfl, fun _ h => nomatch h⟩

/-- An option is a member that is there or not. -/
theorem optional (h : ReadsBack encode decode?) (o : Option α) :
    optional? decode? (o.map encode) = some o := by
  cases o with
  | none => rfl
  | some a =>
    have hread : (decode? (encode a)).map some = some (some a) := by rw [h.decode_encode]; rfl
    rw [Option.map_some, ← hread, optional?.eq_def]
    split
    · next heq => cases heq
    · next heq => exact absurd (Option.some.inj heq) (h.encode_ne_null a)
    · next heq => cases heq; rfl

theorem list (h : ReadsBack encode decode?) :
    ReadsBack (fun l : List α => array (l.map encode)) (list? decode?) where
  decode_encode l := by
    show (l.map encode).mapM decode? = some l
    induction l with
    | nil => rfl
    | cons a l ih => rw [List.map_cons, List.mapM_cons, h.decode_encode, ih]; rfl
  encode_ne_null _ heq := nomatch heq

end ReadsBack

/-! ## Fields -/

/-- A member in front counts if there is none behind it under the name. -/
theorem member?_cons (key : String) (value : Json) (members : List (String × Json))
    (name : String) : (object ((key, value) :: members)).member? name =
      ((object members).member? name).or (if key = name then some value else none) := by
  rw [member?, member?, List.reverse_cons, List.find?_append, Option.map_or]
  congr 1
  by_cases hkey : key = name
  · rw [if_pos hkey, List.find?_singleton, if_pos (beq_iff_eq.mpr hkey)]
    rfl
  · rw [if_neg hkey, List.find?_singleton, if_neg (by simpa using hkey)]
    rfl

theorem member?_record_cons (key : String) (value : Option Json)
    (members : List (String × Option Json)) (name : String) :
    (record ((key, value) :: members)).member? name =
      ((record members).member? name).or (if key = name then value else none) := by
  cases value with
  | none => rw [ite_self, Option.or_none]; rfl
  | some j => exact member?_cons key j _ name

theorem member?_record_of_notMem {members : List (String × Option Json)} {name : String}
    (h : name ∉ members.map Prod.fst) : (record members).member? name = none := by
  induction members with
  | nil => rfl
  | cons m members ih =>
    rw [List.map_cons, List.mem_cons, not_or] at h
    rw [member?_record_cons, ih h.2, if_neg (Ne.symm h.1)]
    rfl

/-- **A field of a record is the member that was written under its name.** -/
theorem member?_record {members : List (String × Option Json)} {name : String}
    {value : Option Json} (h : (members.map Prod.fst).Nodup) (hmem : (name, value) ∈ members) :
    (record members).member? name = value := by
  induction members with
  | nil => cases hmem
  | cons m members ih =>
    obtain ⟨hfirst, hrest⟩ := List.nodup_cons.mp h
    rw [member?_record_cons]
    rcases List.mem_cons.mp hmem with rfl | hmem
    · rw [member?_record_of_notMem hfirst, if_pos rfl, Option.none_or]
    · have hne : m.1 ≠ name := fun heq => hfirst (heq ▸ List.mem_map_of_mem hmem)
      rw [ih hrest hmem, if_neg hne, Option.or_none]

/-- **The fields of a record are the members that it was written with**, whatever stands in front of
them. -/
theorem fields?_record (front : List (String × Option Json))
    {members : List (String × Option Json)} {names : List String} {values : List (Option Json)}
    {j : Json} (hj : j = record (front ++ members)) (hnames : names = members.map Prod.fst)
    (hvalues : values = members.map Prod.snd) (h : (front.map Prod.fst ++ names).Nodup) :
    fields? names j = some values := by
  subst hj hnames hvalues
  rw [← List.map_append] at h
  have hread : ∀ m ∈ members, (record (front ++ members)).member? m.1 = m.2 := fun m hm =>
    member?_record h (List.mem_append_right _ hm)
  have hall : (members.map Prod.fst).map (record (front ++ members)).member? =
      members.map Prod.snd := by
    rw [List.map_map]
    exact List.map_congr_left hread
  exact congrArg some hall

@[simp] theorem required?_some (j : Json) : required? decode? (some j) = decode? j := rfl

end MarkupEdit.Wire
