import MarkupEdit.Proofs.Wire.Records
import MarkupEdit.Wire.Contract

/-!
# Requests and outcomes are read back

What is written of a request, an outcome or an element is read as the same again, whatever was left
out of it.

* `ReadsBack.operation`: the reader of an operation finds its name, and then its fields behind it.
* `contract_readsBack`: **every request and every outcome that is written is read back.**
-/

namespace MarkupEdit.Wire

open MarkupEdit.Edit MarkupEdit.Text Json

/-- A member that was left out because it is empty is read as the empty value. -/
theorem withDefault?_unlessEmpty {α : Type} {decode? : Reader α} {isEmpty : Bool} {value a : α}
    {j : Json} (hread : decode? j = some a) (hempty : isEmpty = true → a = value) :
    withDefault? decode? value (unlessEmpty isEmpty j) = some a := by
  cases isEmpty with
  | false => exact hread
  | true => exact congrArg some (hempty rfl).symm

theorem eq_empty_of_isEmpty {m : TextMap} (h : m.isEmpty = true) : m = TextMap.empty :=
  TextMap.ext_entries (List.isEmpty_iff.mp h)

namespace ReadsBack

/-! ## Numbers, names and maps -/

theorem size : ReadsBack encodeSize decodeSize? where
  decode_encode n := by
    have hbelow : below? UInt64.size (encodeSize n) = some n.toNat := if_pos n.toNat_lt
    rw [decodeSize?, hbelow, Option.map_some, UInt64.ofNat_toNat]
  encode_ne_null _ h := nomatch h

theorem unit : ReadsBack encodeUnit decodeUnit? where
  decode_encode n := by
    have hbelow : below? UInt32.size (encodeUnit n) = some n.toNat := if_pos n.toNat_lt
    rw [decodeUnit?, hbelow, Option.map_some, UInt32.ofNat_toNat]
  encode_ne_null _ h := nomatch h

theorem map : ReadsBack encodeMap decodeMap? where
  decode_encode m := by
    have hmembers : ∀ entries : List (String × String),
        (entries.map (fun entry => (entry.1, Json.string entry.2))).mapM
          (fun member => (string? member.2).map (fun value => (member.1, value))) =
            some entries := by
      intro entries
      induction entries with
      | nil => rfl
      | cons entry entries ih => rw [List.map_cons, List.mapM_cons, ih]; rfl
    have hencode : encodeMap m =
        object (m.entries.map (fun entry => (entry.1, Json.string entry.2))) := rfl
    rw [hencode, decodeMap?, hmembers, Option.map_some, TextMap.ofList_entries]
  encode_ne_null _ h := nomatch h

/-- A name that is one of several is read as what it names. -/
theorem choice {α : Type} {name : α → String} {all : List α} (isNothing : Json → Bool)
    (h : ∀ a, (byName name all).lookup (name a) = some a) :
    ReadsBack (fun a => Json.string (name a)) (choiceWith? isNothing (byName name all)) :=
  ⟨h, fun _ heq => nomatch heq⟩

theorem faultKind : ReadsBack (fun kind => Json.string (FaultKind.name kind)) decodeFaultKind? :=
  choice isNull fun kind => by cases kind <;> decide

theorem strategy : ReadsBack (fun s => Json.string (Strategy.name s)) decodeStrategy? :=
  choice isNull fun s => by cases s <;> decide

theorem changeKind : ReadsBack (fun kind => Json.string (ChangeKind.name kind)) decodeChangeKind? :=
  choice isNull fun kind => by cases kind <;> decide

theorem placement :
    ReadsBack (fun p => Json.string (insertPositionName p)) decodePlacement? :=
  choice isVoid fun p => by cases p <;> decide

theorem attributeValue : ReadsBack encodeAttributeValue decodeAttributeValue? where
  decode_encode value := by cases value <;> rfl
  encode_ne_null value h := by cases value <;> cases h

/-! ## Hints -/

theorem idHint : ReadsBack encodeIdHint decodeIdHint? where
  decode_encode hint := by
    cases hint with
    | first id => rfl
    | nth id index =>
      have hnames : (["id", "instance"] : List String).Nodup := by decide
      have hid : (encodeIdHint (.nth id index)).member? "id" = some (.string id) :=
        member?_record hnames List.mem_cons_self
      have hindex : (encodeIdHint (.nth id index)).member? "instance" = index.map encodeSize :=
        member?_record hnames (List.mem_cons_of_mem _ List.mem_cons_self)
      obtain ⟨members, hmembers⟩ : ∃ members, encodeIdHint (.nth id index) = object members :=
        ⟨_, rfl⟩
      rw [hmembers] at hid hindex ⊢
      rw [decodeIdHint?, hid, hindex, size.optional]
      rfl
  encode_ne_null hint h := by cases hint <;> cases h

theorem position : ReadsBack encodePosition decodePosition? where
  decode_encode p := by
    have hfields : fields? ["line", "column"] (encodePosition p) =
        some [some (encodeUnit p.line), some (encodeUnit p.column)] :=
      fields?_record [] rfl rfl rfl (by decide)
    simp [decodePosition?, hfields, unit.decode_encode]
  encode_ne_null _ h := nomatch h

theorem textHint : ReadsBack encodeTextHint decodeTextHint? where
  decode_encode hint := by
    have hfields : fields? ["original", "tagNameFilter"] (encodeTextHint hint) =
        some [some (.string hint.text), hint.tag.map .string] :=
      fields?_record [] rfl rfl rfl (by decide)
    simp [decodeTextHint?, hfields, string.decode_encode, string.optional]
  encode_ne_null _ h := nomatch h

theorem classHint : ReadsBack encodeClassHint decodeClassHint? where
  decode_encode hint := by
    have hfields : fields? ["value", "tagNameFilter"] (encodeClassHint hint) =
        some [some (.string hint.value), hint.tag.map .string] :=
      fields?_record [] rfl rfl rfl (by decide)
    simp [decodeClassHint?, hfields, string.decode_encode, string.optional]
  encode_ne_null _ h := nomatch h

theorem criteria : ReadsBack encodeCriteria decodeCriteria? where
  decode_encode c := by
    have hfields : fields? ["byId", "byPosition", "byText", "byClassName"] (encodeCriteria c) =
        some [c.byId.map encodeIdHint, c.byPosition.map encodePosition,
          c.byText.map encodeTextHint, c.byClass.map encodeClassHint] :=
      fields?_record [] rfl rfl rfl (by decide)
    simp [decodeCriteria?, hfields, idHint.optional, position.optional, textHint.optional,
      classHint.optional]
  encode_ne_null _ h := nomatch h

/-! ## Operations -/

theorem strings : ReadsBack Wire.strings (list? string?) := string.list

/-- A change of a style is read behind the name of the operation. -/
theorem decodeStyleChange?_encode (change : StyleChange) :
    decodeStyleChange? (encodeOperation (.style change)) = some change := by
  have hfields : fields? ["className", "addClasses", "removeClasses", "style"]
      (encodeOperation (.style change)) = some ((styleMembers change).map Prod.snd) :=
    fields?_record [("type", some (.string "style"))] rfl rfl rfl (by decide)
  have hclasses : ∀ l : List String,
      withDefault? (list? string?) [] (unlessEmpty l.isEmpty (Wire.strings l)) = some l := fun l =>
    withDefault?_unlessEmpty (strings.decode_encode l) List.isEmpty_iff.mp
  have hstyle : withDefault? decodeMap? TextMap.empty
      (unlessEmpty change.style.isEmpty (encodeMap change.style)) = some change.style :=
    withDefault?_unlessEmpty (map.decode_encode change.style) eq_empty_of_isEmpty
  simp [decodeStyleChange?, hfields, styleMembers, string.optional, hclasses, hstyle]

/-- The name of an operation leads to the reader of its fields. -/
theorem decodeOperation?_encode (operation : Operation) :
    decodeOperation? (encodeOperation operation) =
      namedOperation? operation.name (encodeOperation operation) := by
  have hnames : ((operationMembers operation).map Prod.fst).Nodup ∧
      "type" ∉ (operationMembers operation).map Prod.fst := by
    cases operation <;> exact ⟨by simp [operationMembers, styleMembers],
      by simp [operationMembers, styleMembers]⟩
  have htype : (encodeOperation operation).member? "type" = some (.string operation.name) :=
    member?_record (List.nodup_cons.mpr ⟨hnames.2, hnames.1⟩) List.mem_cons_self
  have hread : decodeOperation? (encodeOperation operation) =
      (required? string? ((encodeOperation operation).member? "type")).bind
        (fun name => namedOperation? name (encodeOperation operation)) := rfl
  rw [hread, htype]
  rfl

theorem operation : ReadsBack encodeOperation decodeOperation? where
  decode_encode operation := by
    rw [decodeOperation?_encode]
    cases operation with
    | text value =>
      have hfields : fields? ["text"] (encodeOperation (.text value)) =
          some [some (.string value)] :=
        fields?_record [("type", some (.string "text"))] rfl rfl rfl (by decide)
      simp [namedOperation?, Operation.name, hfields, string.decode_encode]
    | style change =>
      simp [namedOperation?, Operation.name, decodeStyleChange?_encode]
    | setAttribute name value =>
      have hfields : fields? ["name", "value"] (encodeOperation (.setAttribute name value)) =
          some [some (.string name), some ((value.map encodeAttributeValue).getD null)] :=
        fields?_record [("type", some (.string "attribute"))] rfl rfl rfl (by decide)
      -- null stands for no value at all
      have hvalue : optional? decodeAttributeValue?
          (some ((value.map encodeAttributeValue).getD null)) = some value := by
        cases value with
        | none => rfl
        | some value => exact attributeValue.optional (some value)
      simp [namedOperation?, Operation.name, hfields, string.decode_encode, hvalue]
    | remove => rfl
    | insert snippet position =>
      have hfields : fields? ["markupSnippet", "position"]
          (encodeOperation (.insert snippet position)) =
            some [some (.string snippet), some (.string (insertPositionName position))] :=
        fields?_record [("type", some (.string "insert"))] rfl rfl rfl (by decide)
      simp [namedOperation?, Operation.name, hfields, string.decode_encode,
        placement.decode_encode]
    | replace markup =>
      have hfields : fields? ["markup"] (encodeOperation (.replace markup)) =
          some [some (.string markup)] :=
        fields?_record [("type", some (.string "replace"))] rfl rfl rfl (by decide)
      simp [namedOperation?, Operation.name, hfields, string.decode_encode]
    | wrap element attributes =>
      have hfields : fields? ["element", "attributes"]
          (encodeOperation (.wrap element attributes)) =
            some [some (.string element),
              unlessEmpty attributes.isEmpty (encodeMap attributes)] :=
        fields?_record [("type", some (.string "wrap"))] rfl rfl rfl (by decide)
      have hattributes : withDefault? decodeMap? TextMap.empty
          (unlessEmpty attributes.isEmpty (encodeMap attributes)) = some attributes :=
        withDefault?_unlessEmpty (map.decode_encode attributes) eq_empty_of_isEmpty
      simp [namedOperation?, Operation.name, hfields, string.decode_encode, hattributes]
    | unwrap => rfl
  encode_ne_null _ h := nomatch h

/-! ## Requests -/

theorem request : ReadsBack encodeRequest decodeRequest? where
  decode_encode r := by
    have hfields : fields? ["sourceText", "filePath", "locator", "operation"] (encodeRequest r) =
        some [some (.string r.source), some (.string r.file), some (encodeCriteria r.locator),
          some (encodeOperation r.operation)] :=
      fields?_record [] rfl rfl rfl (by decide)
    simp [decodeRequest?, hfields, string.decode_encode, criteria.decode_encode,
      operation.decode_encode]
  encode_ne_null _ h := nomatch h

theorem batchEdit : ReadsBack encodeBatchEdit decodeBatchEdit? where
  decode_encode e := by
    have hfields : fields? ["locator", "operation"] (encodeBatchEdit e) =
        some [some (encodeCriteria e.locator), some (encodeOperation e.operation)] :=
      fields?_record [] rfl rfl rfl (by decide)
    simp [decodeBatchEdit?, hfields, criteria.decode_encode, operation.decode_encode]
  encode_ne_null _ h := nomatch h

theorem batchRequest : ReadsBack encodeBatchRequest decodeBatchRequest? where
  decode_encode r := by
    have hfields : fields? ["sourceText", "filePath", "edits"] (encodeBatchRequest r) =
        some [some (.string r.source), some (.string r.file),
          some (array (r.edits.map encodeBatchEdit))] :=
      fields?_record [] rfl rfl rfl (by decide)
    simp [decodeBatchRequest?, hfields, string.decode_encode, batchEdit.list.decode_encode]
  encode_ne_null _ h := nomatch h

/-! ## Outcomes -/

theorem change : ReadsBack encodeChange decodeChange? where
  decode_encode c := by
    have hfields : fields? ["kind", "path", "oldValue", "newValue"] (encodeChange c) =
        some [some (.string c.kind.name), some (.string c.path), c.old.map .string,
          c.new.map .string] :=
      fields?_record [] rfl rfl rfl (by decide)
    simp [decodeChange?, hfields, string.decode_encode, string.optional,
      changeKind.decode_encode]
  encode_ne_null _ h := nomatch h

theorem outcome : ReadsBack encodeOutcome decodeOutcome? where
  decode_encode o := by
    have hfields : fields? ["success", "newSourceText", "error", "errorKind", "changes",
        "strategy"] (encodeOutcome o) =
          some [some (.bool o.success), o.newSource.map .string, o.error.map .string,
            o.errorKind.map (fun kind => .string kind.name),
            some (array (o.changes.map encodeChange)),
            o.strategy.map (fun strategy => .string strategy.name)] :=
      fields?_record [] rfl rfl rfl (by decide)
    have hchanges : withDefault? (list? decodeChange?) []
        (some (array (o.changes.map encodeChange))) = some o.changes :=
      change.list.decode_encode o.changes
    simp [decodeOutcome?, hfields, bool?, string.optional, faultKind.optional, hchanges,
      strategy.optional]
  encode_ne_null _ h := nomatch h

/-- The number of the edit that failed is read back if it is one of 64 bits. -/
theorem batchOutcome (o : BatchOutcome) (h : ∀ index, o.failedAt = some index → index < UInt64.size) :
    decodeBatchOutcome? (encodeBatchOutcome o) = some o := by
  have hfields : fields? ["success", "newSourceText", "results", "failedAt"]
      (encodeBatchOutcome o) =
        some [some (.bool o.success), some (.string o.newSource),
          some (array (o.results.map encodeOutcome)), o.failedAt.map ofNat] :=
    fields?_record [] rfl rfl rfl (by decide)
  have hindex : optional? (below? UInt64.size) (o.failedAt.map ofNat) = some o.failedAt := by
    cases hfailed : o.failedAt with
    | none => rfl
    | some index =>
      have hbelow : below? UInt64.size (ofNat index) = some index := if_pos (h index hfailed)
      exact congrArg (Option.map some) hbelow
  simp [decodeBatchOutcome?, hfields, bool?, string.decode_encode, outcome.list.decode_encode,
    hindex]

theorem elementInfo : ReadsBack encodeElementInfo decodeElementInfo? where
  decode_encode e := by
    have hfields : fields? ["path", "stableId", "elementName", "attributes", "text", "childCount",
        "line", "column", "depth"] (encodeElementInfo e) =
          some [some (.string e.path), e.stableId.map .string, some (.string e.name),
            some (encodeMap e.attributes), some (.string e.text), some (encodeSize e.childCount),
            some (encodeUnit e.line), some (encodeUnit e.column), some (encodeSize e.depth)] :=
      fields?_record [] rfl rfl rfl (by decide)
    simp [decodeElementInfo?, hfields, string.decode_encode, string.optional, map.decode_encode,
      size.decode_encode, unit.decode_encode]
  encode_ne_null _ h := nomatch h

end ReadsBack

/-- **Every request and every outcome that is written is read back as it was**: an edit of a file and
edits in a row, with any hints and any operation, what comes out of them, and an element as it is
listed. In the outcome of edits in a row the number of the edit that failed has 64 bits. -/
theorem contract_readsBack :
    (∀ r : Request, decodeRequest? (encodeRequest r) = some r) ∧
    (∀ r : BatchRequest, decodeBatchRequest? (encodeBatchRequest r) = some r) ∧
    (∀ o : Outcome, decodeOutcome? (encodeOutcome o) = some o) ∧
    (∀ o : BatchOutcome, (∀ index, o.failedAt = some index → index < UInt64.size) →
      decodeBatchOutcome? (encodeBatchOutcome o) = some o) ∧
    ∀ e : ElementInfo, decodeElementInfo? (encodeElementInfo e) = some e :=
  ⟨ReadsBack.request.decode_encode, ReadsBack.batchRequest.decode_encode,
    ReadsBack.outcome.decode_encode, ReadsBack.batchOutcome, ReadsBack.elementInfo.decode_encode⟩

theorem contract_readsBack_failed :
    let first := Outcome.succeeded "<p id=\"x\"/>;" [.added "/0/0@id" "x"] .position
    let second := Outcome.failed (.unmatched [.text])
    1 < UInt64.size ∧
      decodeBatchOutcome? (encodeBatchOutcome ⟨false, "<p id=\"x\"/>;", [first, second], some 1⟩) =
        some ⟨false, "<p id=\"x\"/>;", [first, second], some 1⟩ := by
  intro first second
  have hindex : 1 < UInt64.size := by decide
  have houtcome : ∀ index, some 1 = some index → index < UInt64.size := fun index h => by
    rwa [← Option.some.inj h]
  exact ⟨hindex, contract_readsBack.2.2.2.1 _ houtcome⟩

end MarkupEdit.Wire
