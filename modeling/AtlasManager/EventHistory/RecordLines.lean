import AtlasManager.EventHistory.CheckedEvents

/-!
# AtlasManager.EventHistory.RecordLines

The lines of the event history, read as records.

* `createEventHistoryRecord_sameJson` -- what has been read is the record that comes of it, up to
  details that nobody looked at;
* `createEventHistoryRecord_accepts` -- and whatever is so is read as that record;
* `parse_serialize` -- a line that has been written is read as its record;
* `recordLines_iff` -- when a line with something altered betrays a collision of the hash.
-/

namespace AtlasManager.EventHistory

open AtlasManager.Lib AtlasManager.Lib.Rfc8259 AtlasManager.Backup AtlasManager.AccessControl
open AtlasManager.Config (parseStrictJson)
open Json (IsScalar IsFlat)

/-! ## Values that have been read -/

/-- A value that a text has held. -/
def IsRead (value : JsValue) : Prop := ∃ read, jsValue read = value

theorem isRead_of_lookup {record : Fields} {name : String} {value : JsValue}
    (h : IsRead (.obj record)) (hlookup : record.lookup name = some value) : IsRead value := by
  obtain ⟨read, hread⟩ := h
  cases read with
  | obj members =>
      rw [jsValue, JsValue.obj.injEq, jsFields_eq] at hread
      obtain ⟨before, after, heq, -⟩ := List.lookup_eq_some_iff.mp hlookup
      have hmem : (name, value) ∈ record := by
        rw [heq]
        simp
      rw [← hread] at hmem
      obtain ⟨member, -, hmember⟩ := List.mem_map.mp hmem
      exact ⟨member.2, (Prod.mk.inj hmember).2⟩
  | num number => cases number <;> cases hread
  | _ => cases hread

theorem ne_undefined_of_isRead {value : JsValue} (h : IsRead value) : value ≠ .undefined := by
  obtain ⟨read, rfl⟩ := h
  cases read with
  | num number => cases number <;> simp [jsValue]
  | _ => simp [jsValue]

/-! ## Records -/

/-- A record with more fields in the details of its event. -/
def EventHistoryRecord.addDetails (record : EventHistoryRecord) (extra : Fields) : EventHistoryRecord :=
  { record with event := record.event.addDetails extra }

namespace EventHistoryRecord

variable (record : EventHistoryRecord)

theorem names_fields : record.fields.map Prod.fst = recordNames := rfl

theorem nodup_names_fields : (record.fields.map Prod.fst).Nodup := by
  rw [names_fields]
  decide

theorem nodup_names_unsignedFields : (record.unsignedFields.map Prod.fst).Nodup := by
  simp [unsignedFields]

theorem lookup_unsignedFields :
    record.unsignedFields.lookup "sequence" = some (.num record.sequence) ∧
    record.unsignedFields.lookup "event" = some (.obj record.event.fields) ∧
    record.unsignedFields.lookup "previousRecordSha256" = some (.str record.previousRecordSha256) := by
  simp [unsignedFields, List.lookup]

theorem lookup_fields :
    record.fields.lookup "schemaVersion" = some (.num 2) ∧
    record.fields.lookup "sequence" = some (.num record.sequence) ∧
    record.fields.lookup "event" = some (.obj record.event.fields) ∧
    record.fields.lookup "previousRecordSha256" = some (.str record.previousRecordSha256) ∧
    record.fields.lookup "recordSha256" = some (.str record.recordSha256) := by
  simp [fields, unsignedFields, List.lookup]

theorem hasExactFields_fields : hasExactFields record.fields recordNames = true := by
  simp [hasExactFields, hasFieldOutside, fields, unsignedFields, recordNames]

/-- The same record, up to the order of the fields in its details. -/
def Same (a b : EventHistoryRecord) : Prop := SameJson (.obj a.fields) (.obj b.fields)

end EventHistoryRecord

/-- What the check of a record has read. -/
structure ReadsRecord (sha256 : Text → String) (fields : Fields) (record : EventHistoryRecord) :
    Prop where
  exactFields : hasExactFields fields recordNames = true
  schemaVersion : field fields "schemaVersion" = .num 2
  sequence : field fields "sequence" = .num record.sequence ∧ 1 ≤ record.sequence ∧
    record.sequence < 2 ^ 53
  event : createAdministrativeEvent (field fields "event") = .ok record.event
  sameSequence : record.event.sequence = record.sequence
  previousRecordSha256 : field fields "previousRecordSha256" = .str record.previousRecordSha256 ∧
    isSha256 record.previousRecordSha256 = true
  recordSha256 : field fields "recordSha256" = .str record.recordSha256 ∧
    isSha256 record.recordSha256 = true
  hash : sha256 (serializeEventHistoryRecordForHash record) = record.recordSha256

variable {sha256 : Text → String}

theorem createEventHistoryRecord_eq_ok {fields : Fields} {record : EventHistoryRecord} :
    createEventHistoryRecord sha256 (.obj fields) = .ok record ↔ ReadsRecord sha256 fields record := by
  constructor
  · intro h
    simp only [createEventHistoryRecord] at h
    split_ifs at h with hexact hversion
    cases hsequence : positiveInteger? (field fields "sequence") with
    | none => simp [hsequence] at h
    | some sequence =>
        cases hevent : createAdministrativeEvent (field fields "event") with
        | error code => simp [hsequence, hevent] at h
        | ok event =>
            simp only [hsequence, hevent] at h
            split_ifs at h with hsame
            cases hprevious : field fields "previousRecordSha256" with
            | str previousRecordSha256 =>
                cases hrecord : field fields "recordSha256" with
                | str recordSha256 =>
                    simp only [hprevious, hrecord] at h
                    split_ifs at h with hhashes hhash
                    obtain rfl := Except.ok.inj h
                    rw [Bool.or_eq_true, Bool.not_eq_true', Bool.not_eq_true', not_or,
                      Bool.not_eq_false, Bool.not_eq_false] at hhashes
                    exact ⟨by simpa using hexact, by simpa using hversion,
                      positiveInteger?_eq_some.mp hsequence, hevent, by simpa using hsame,
                      ⟨hprevious, hhashes.1⟩, ⟨hrecord, hhashes.2⟩, by simpa using hhash⟩
                | _ => simp [hprevious, hrecord] at h
            | _ => simp [hprevious] at h
  · intro h
    simp only [createEventHistoryRecord, h.exactFields, h.schemaVersion,
      positiveInteger?_eq_some.mpr h.sequence, h.event, h.sameSequence, h.previousRecordSha256.1,
      h.previousRecordSha256.2, h.recordSha256.1, h.recordSha256.2, h.hash, Bool.not_true,
      Bool.false_eq_true, if_false, ne_eq, not_true_eq_false, Bool.or_self]

/-- **What has been read** is the record that comes of it, up to more details of its event. -/
theorem createEventHistoryRecord_sameJson {fields : Fields} {record : EventHistoryRecord}
    (hread : IsRead (.obj fields)) (hjs : IsJs (.obj fields))
    (h : createEventHistoryRecord sha256 (.obj fields) = .ok record) :
    ∃ extra, SameJson (.obj fields) (.obj (record.addDetails extra).fields) ∧
      (extra ≠ [] → isLoose record.event.operation record.event.status = true ∧
        record.event.details.isSome = true) := by
  have hreads := createEventHistoryRecord_eq_ok.mp h
  have hevent := hreads.event
  cases hvalue : field fields "event" with
  | obj event =>
      rw [hvalue] at hevent
      have hlookup := lookup_of_field hvalue (by simp)
      have hdefined : event.lookup "details" ≠ some .undefined := by
        intro hdetails
        exact ne_undefined_of_isRead (isRead_of_lookup (isRead_of_lookup hread hlookup) hdetails) rfl
      obtain ⟨extra, hsame, hloose⟩ :=
        createAdministrativeEvent_sameJson (isJs_of_lookup hjs hlookup) hdefined hevent
      refine ⟨extra, ?_, hloose⟩
      obtain ⟨h₁, h₂, h₃, h₄, h₅⟩ := (record.addDetails extra).lookup_fields
      refine sameJson_of_names hjs.1 (record.addDetails extra).nodup_names_fields
        (hasFieldOutside_of_hasExactFields hreads.exactFields)
        (hasFieldOutside_of_hasExactFields (record.addDetails extra).hasExactFields_fields) ?_
      simp only [recordNames, List.forall_mem_cons, List.not_mem_nil, false_implies, implies_true,
        and_true]
      refine ⟨?_, ?_, ?_, ?_, ?_⟩
      · rw [h₁, lookup_of_field hreads.schemaVersion (by simp)]
      · rw [h₂, lookup_of_field hreads.sequence.1 (by simp)]
        rfl
      · rw [h₃, hlookup]
        exact congrArg some hsame
      · rw [h₄, lookup_of_field hreads.previousRecordSha256.1 (by simp)]
        rfl
      · rw [h₅, lookup_of_field hreads.recordSha256.1 (by simp)]
        rfl
  | _ => rw [hvalue] at hevent; cases hevent

/-! ## Valid records -/

/-- A record of a checked event with the right hash. -/
structure EventHistoryRecord.Valid (sha256 : Text → String) (record : EventHistoryRecord) : Prop where
  checked : Checked record.event
  sequence : record.event.sequence = record.sequence
  previousRecordSha256 : isSha256 record.previousRecordSha256 = true
  recordSha256 : isSha256 record.recordSha256 = true
  hash : sha256 (serializeEventHistoryRecordForHash record) = record.recordSha256

/-- A record that was read is valid. -/
theorem valid_of_createEventHistoryRecord {fields : Fields} {record : EventHistoryRecord}
    (hjs : IsJs (.obj fields)) (h : createEventHistoryRecord sha256 (.obj fields) = .ok record) :
    record.Valid sha256 := by
  have hreads := createEventHistoryRecord_eq_ok.mp h
  refine ⟨⟨field fields "event", ?_, hreads.event⟩, hreads.sameSequence,
    hreads.previousRecordSha256.2, hreads.recordSha256.2, hreads.hash⟩
  rw [field]
  cases hlookup : fields.lookup "event" with
  | none => trivial
  | some value => exact isJs_of_lookup hjs hlookup

/-- The record of a checked event behind any hash is valid. -/
theorem createNextEventHistoryRecord_valid (hsha256 : ∀ text, isSha256 (sha256 text) = true)
    {event : AdministrativeEvent} {previousRecordSha256 : String} (hevent : Checked event)
    (hprevious : isSha256 previousRecordSha256 = true) :
    ∃ record, createNextEventHistoryRecord sha256 event previousRecordSha256 = .ok record ∧
      record.event = event ∧ record.previousRecordSha256 = previousRecordSha256 ∧
      record.Valid sha256 := by
  simp only [createNextEventHistoryRecord, hprevious, Bool.not_true, Bool.false_eq_true, if_false]
  exact ⟨_, rfl, rfl, rfl, hevent, rfl, hprevious, hsha256 _, rfl⟩

/-- A text of a pattern whose characters are below the surrogates stands for itself. -/
theorem isUnits_of_matchesClasses {classes : List (Char → Bool)} {text : String}
    (h : matchesClasses classes text = true)
    (hbelow : ∀ p ∈ classes, ∀ c, p c = true → c.toNat < 0xD800) : IsUnits text := by
  refine isUnits_of_lt fun c hc => ?_
  rw [matchesClasses, Bool.and_eq_true, decide_eq_true_eq, List.all_eq_true] at h
  obtain ⟨hlength, hall⟩ := h
  obtain ⟨i, hi, rfl⟩ := List.mem_iff_getElem.mp hc
  have hclass : i < classes.length := by omega
  refine hbelow classes[i] (List.getElem_mem hclass) _ (hall (classes[i], text.toList[i]) ?_)
  rw [List.mem_iff_getElem]
  exact ⟨i, by simp; omega, by simp⟩

theorem lt_of_le_char {c d : Char} (h : c ≤ d) (hd : d.toNat < 0xD800) : c.toNat < 0xD800 := by
  rw [Char.le_def, UInt32.le_iff_toNat_le] at h
  exact lt_of_le_of_lt h hd

theorem isHexDigit_below (c : Char) (h : isHexDigit c = true) : c.toNat < 0xD800 := by
  simp only [isHexDigit, decide_eq_true_eq] at h
  rcases h with h | h
  · exact lt_of_le_char h.2 (by decide)
  · exact lt_of_le_char h.2 (by decide)

theorem isUnits_of_isSha256 {text : String} (h : isSha256 text = true) : IsUnits text := by
  refine isUnits_of_matchesClasses h fun p hp c hc => isHexDigit_below c ?_
  rwa [(List.mem_replicate.mp hp).2] at hc

theorem isUnits_of_isRunId {text : String} (h : isRunId text = true) : IsUnits text := by
  have hdash : ∀ c : Char, decide (c = '-') = true → c.toNat < 0xD800 := by
    intro c hc
    rw [of_decide_eq_true hc]
    decide
  refine isUnits_of_matchesClasses h fun p hp c hc => ?_
  simp only [List.mem_append, List.mem_replicate, List.mem_singleton] at hp
  rcases hp with (((((((((⟨-, rfl⟩ | rfl) | ⟨-, rfl⟩) | rfl) | rfl) | ⟨-, rfl⟩) | rfl) | rfl) |
    ⟨-, rfl⟩) | rfl) | ⟨-, rfl⟩
  case inl.inl.inl.inl.inl.inl.inr => exact lt_of_le_char (of_decide_eq_true hc).2 (by decide)
  case inl.inl.inl.inr =>
    have hc : c ∈ ['8', '9', 'a', 'b'] := of_decide_eq_true hc
    revert hc
    simp only [List.mem_cons, List.not_mem_nil, or_false]
    rintro (rfl | rfl | rfl | rfl) <;> decide
  all_goals first | exact isHexDigit_below c hc | exact hdash c hc

theorem isUnits_recordNames : ∀ name ∈ recordNames, IsUnits name := isUnits_of_all (by decide)

namespace EventHistoryRecord

variable {record : EventHistoryRecord}

/-- A text can hold every field of a valid record. -/
theorem Valid.isWritable_fields (h : record.Valid sha256) :
    IsWritable (.obj record.unsignedFields) ∧ IsWritable (.obj record.fields) := by
  have hevent := EventHistory.isWritable_fields h.checked
  obtain ⟨-, hsequence, -⟩ :=
    createAdministrativeEvent_eq_ok.mp (createAdministrativeEvent_again h.checked)
  rw [h.sequence] at hsequence
  have hnumber : IsWritable (.num record.sequence) := by
    refine ⟨Nat.cast_nonneg _, Rat.den_natCast _, ?_⟩
    exact_mod_cast hsequence.2.2
  have hunsigned : FieldsAreWritable record.unsignedFields :=
    ⟨isUnits_recordNames _ (by decide), ⟨by norm_num, rfl, by norm_num⟩,
      isUnits_recordNames _ (by decide), hnumber, isUnits_recordNames _ (by decide), hevent,
      isUnits_recordNames _ (by decide), isUnits_of_isSha256 h.previousRecordSha256, trivial⟩
  refine ⟨⟨record.nodup_names_unsignedFields, hunsigned⟩, record.nodup_names_fields, ?_⟩
  rw [fieldsAreWritable_iff] at hunsigned ⊢
  rw [fields, List.forall_mem_append, List.forall_mem_singleton]
  exact ⟨hunsigned, isUnits_recordNames "recordSha256" (by decide), isUnits_of_isSha256 h.recordSha256⟩

/-- Records with the same events, numbers and previous hashes hash the same text. -/
theorem unsigned_same {a b : EventHistoryRecord} (hsequence : a.sequence = b.sequence)
    (hevent : SameJson (.obj a.event.fields) (.obj b.event.fields))
    (hprevious : a.previousRecordSha256 = b.previousRecordSha256) :
    SameJson (.obj a.unsignedFields) (.obj b.unsignedFields) := by
  rw [SameJson] at hevent
  rw [SameJson, sortJson, sortJson, sortValues_eq, sortValues_eq]
  simp only [unsignedFields, List.map_cons, List.map_nil, hsequence, hprevious, hevent]

theorem same_of_unsigned {a b : EventHistoryRecord} (hsequence : a.sequence = b.sequence)
    (hevent : SameJson (.obj a.event.fields) (.obj b.event.fields))
    (hprevious : a.previousRecordSha256 = b.previousRecordSha256)
    (hrecord : a.recordSha256 = b.recordSha256) : a.Same b := by
  rw [SameJson] at hevent
  rw [Same, SameJson, sortJson, sortJson, sortValues_eq, sortValues_eq]
  simp only [fields, unsignedFields, List.map_cons, List.map_nil, List.map_append, hsequence,
    hprevious, hevent, hrecord]

theorem serializeForHash_eq {a b : EventHistoryRecord}
    (h : SameJson (.obj a.unsignedFields) (.obj b.unsignedFields)) :
    serializeEventHistoryRecordForHash a = serializeEventHistoryRecordForHash b := by
  rw [serializeEventHistoryRecordForHash, serializeEventHistoryRecordForHash, canonicalJson,
    canonicalJson, h]

/-- Valid records whose hashes are of one text are of the same event, number and previous hash. -/
theorem Valid.eq_of_serializeForHash {a b : EventHistoryRecord} (ha : a.Valid sha256)
    (hb : b.Valid sha256)
    (h : serializeEventHistoryRecordForHash a = serializeEventHistoryRecordForHash b) :
    a.sequence = b.sequence ∧ SameJson (.obj a.event.fields) (.obj b.event.fields) ∧
      a.previousRecordSha256 = b.previousRecordSha256 := by
  have hsame := sameJson_of_canonicalJson ha.isWritable_fields.1 hb.isWritable_fields.1 h
  have hlookup :=
    (sameJson_obj a.nodup_names_unsignedFields b.nodup_names_unsignedFields).mp hsame
  obtain ⟨ha₁, ha₂, ha₃⟩ := a.lookup_unsignedFields
  obtain ⟨hb₁, hb₂, hb₃⟩ := b.lookup_unsignedFields
  have hsequence := hlookup "sequence"
  have hevent := hlookup "event"
  have hprevious := hlookup "previousRecordSha256"
  rw [ha₁, hb₁] at hsequence
  rw [ha₂, hb₂] at hevent
  rw [ha₃, hb₃] at hprevious
  have hnum : JsValue.num a.sequence = .num b.sequence := Option.some.inj hsequence
  have hstr : JsValue.str a.previousRecordSha256 = .str b.previousRecordSha256 :=
    Option.some.inj hprevious
  rw [JsValue.num.injEq] at hnum
  exact ⟨by exact_mod_cast hnum, Option.some.inj hevent, JsValue.str.inj hstr⟩

end EventHistoryRecord

/-! ## Reading records again -/

/-- **Whatever is the same** as a valid record is read as that record, and so it is with more
details where the check does not look at them. -/
theorem createEventHistoryRecord_accepts {record : EventHistoryRecord} (hvalid : record.Valid sha256)
    {fields extra : Fields} (hjs : IsJs (.obj fields))
    (hsame : SameJson (.obj fields) (.obj (record.addDetails extra).fields))
    (hloose : extra ≠ [] → isLoose record.event.operation record.event.status = true) :
    ∃ read, createEventHistoryRecord sha256 (.obj fields) = .ok read ∧ read.Same record ∧
      serializeEventHistoryRecordForHash read = serializeEventHistoryRecordForHash record := by
  obtain ⟨-, hsequence, -⟩ :=
    createAdministrativeEvent_eq_ok.mp (createAdministrativeEvent_again hvalid.checked)
  rw [hvalid.sequence] at hsequence
  have hperm := names_perm_of_sameJson hsame
  have hlookup := (sameJson_obj hjs.1 (record.addDetails extra).nodup_names_fields).mp hsame
  obtain ⟨h₁, h₂, h₃, h₄, h₅⟩ := (record.addDetails extra).lookup_fields
  have hflat : IsFlat (.num record.sequence) := by
    refine ⟨Nat.cast_nonneg _, Rat.den_natCast _, ?_⟩
    exact_mod_cast hsequence.2.2
  obtain ⟨event, hevent, hsameEvent⟩ := record_of_lookup (hlookup "event") h₃
  obtain ⟨made, hmade, hmadeSequence, hmadeSame⟩ :=
    createAdministrativeEvent_accepts hvalid.checked (isJs_of_lookup hjs hevent) hsameEvent hloose
  have hunsigned := EventHistoryRecord.unsigned_same (a := { record with event := made })
    (b := record) rfl hmadeSame rfl
  have htext := EventHistoryRecord.serializeForHash_eq hunsigned
  refine ⟨{ record with event := made }, createEventHistoryRecord_eq_ok.mpr ?_,
    EventHistoryRecord.same_of_unsigned rfl hmadeSame rfl rfl, htext⟩
  have hexact := (record.addDetails extra).hasExactFields_fields
  rw [hasExactFields, Bool.and_eq_true, decide_eq_true_eq, Bool.not_eq_true',
    hasFieldOutside_eq_false] at hexact
  refine {
    exactFields := ?_
    schemaVersion := field_of_lookup
      (lookup_eq_of_flat (hlookup _) h₁ ⟨by norm_num, rfl, by norm_num⟩)
    sequence := ⟨field_of_lookup (lookup_eq_of_flat (hlookup _) h₂ hflat), hsequence.2⟩
    event := by rw [field_of_lookup hevent]; exact hmade
    sameSequence := hmadeSequence.trans hvalid.sequence
    previousRecordSha256 := ⟨field_of_lookup (lookup_eq_of_flat (hlookup _) h₄ trivial),
      hvalid.previousRecordSha256⟩
    recordSha256 := ⟨field_of_lookup (lookup_eq_of_flat (hlookup _) h₅ trivial),
      hvalid.recordSha256⟩
    hash := htext ▸ hvalid.hash }
  rw [hasExactFields, Bool.and_eq_true, decide_eq_true_eq, Bool.not_eq_true',
    hasFieldOutside_eq_false]
  have hcount := hperm.length_eq
  rw [List.length_map, List.length_map] at hcount
  exact ⟨hcount.trans hexact.1, fun name hname => hexact.2 name (hperm.mem_iff.mp hname)⟩

/-! ## Lines -/

/-- The value that a line holds. -/
def LineHolds (line : Text) (value : JsValue) : Prop :=
  line.getLast? = some 0x0A ∧ 0x0D ∉ line ∧
    ∃ parsed, parseStrictJson line.dropLast = .ok parsed ∧ jsValue parsed = value

theorem LineHolds.unique {line : Text} {a b : JsValue} (ha : LineHolds line a)
    (hb : LineHolds line b) : a = b := by
  obtain ⟨-, -, parsed, hparsed, rfl⟩ := ha
  obtain ⟨-, -, parsed', hparsed', rfl⟩ := hb
  rw [hparsed, Except.ok.injEq] at hparsed'
  rw [hparsed']

theorem LineHolds.isRead {line : Text} {value : JsValue} (h : LineHolds line value) :
    IsRead value ∧ IsJs value := by
  obtain ⟨-, -, parsed, hparsed, rfl⟩ := h
  exact ⟨⟨parsed, rfl⟩, isJs_of_parseStrictJson hparsed⟩

theorem parseEventHistoryRecordLine_eq_ok {line : Text} {record : EventHistoryRecord} :
    parseEventHistoryRecordLine sha256 line = .ok record ↔
      ∃ value, LineHolds line value ∧ createEventHistoryRecord sha256 value = .ok record := by
  rw [parseEventHistoryRecordLine]
  constructor
  · intro h
    split_ifs at h with hline
    simp only [Bool.or_eq_true, decide_eq_true_eq, not_or, Decidable.not_not] at hline
    cases hparsed : parseStrictJson line.dropLast with
    | error code => simp [hparsed] at h
    | ok parsed =>
        simp only [hparsed] at h
        exact ⟨jsValue parsed, ⟨hline.1, hline.2, parsed, hparsed, rfl⟩, h⟩
  · intro h
    obtain ⟨value, ⟨hlast, hreturn, parsed, hparsed, rfl⟩, hcreate⟩ := h
    rw [if_neg (by simp [hlast, hreturn]), hparsed]
    exact hcreate

/-- A line of a canonical text holds the sorted value. -/
theorem lineHolds_canonicalJson {value : JsValue} (h : IsWritable value) :
    LineHolds (canonicalJson value ++ [0x0A]) (sortJson value) := by
  obtain ⟨parsed, hparsed, hvalue⟩ := parseStrictJson_canonicalJson h
  refine ⟨by simp, ?_, parsed, by rw [List.dropLast_concat, hparsed], hvalue⟩
  intro hreturn
  cases List.mem_append.mp hreturn with
  | inl hfront => exact absurd (visible_canonicalJson value _ hfront) (by decide)
  | inr hlast => exact absurd hlast (by decide)

/-- The lines that hold what is the same as a valid record with more details, where the check does
not look at them, are read as the record. -/
theorem parse_of_lineHolds {record : EventHistoryRecord} (hvalid : record.Valid sha256) {line : Text}
    {fields extra : Fields} (hline : LineHolds line (.obj fields))
    (hsame : SameJson (.obj fields) (.obj (record.addDetails extra).fields))
    (hloose : extra ≠ [] → isLoose record.event.operation record.event.status = true) :
    ∃ read, parseEventHistoryRecordLine sha256 line = .ok read ∧ read.Same record ∧
      serializeEventHistoryRecordForHash read = serializeEventHistoryRecordForHash record := by
  obtain ⟨read, hread, hrecord, htext⟩ :=
    createEventHistoryRecord_accepts hvalid hline.isRead.2 hsame hloose
  exact ⟨read, parseEventHistoryRecordLine_eq_ok.mpr ⟨_, hline, hread⟩, hrecord, htext⟩

theorem addDetails_nil (record : EventHistoryRecord) : record.addDetails [] = record := by
  cases record with
  | mk sequence event previousRecordSha256 recordSha256 =>
      have hdetails : (event.details.map fun details => details ++ []) = event.details := by
        cases event.details <;> simp
      simp only [EventHistoryRecord.addDetails, AdministrativeEvent.addDetails, hdetails]

/-- **A line that was written** is read as its record. -/
theorem parse_serialize {record : EventHistoryRecord} (hvalid : record.Valid sha256) :
    ∃ read, parseEventHistoryRecordLine sha256 (serializeEventHistoryRecord record) = .ok read ∧
      read.Same record ∧
      serializeEventHistoryRecordForHash read = serializeEventHistoryRecordForHash record := by
  have hwritable := hvalid.isWritable_fields.2
  have hsame := sortJson_sortJson hwritable
  have hnone : ([] : Fields) ≠ [] → isLoose record.event.operation record.event.status = true :=
    fun hne => absurd rfl hne
  refine parse_of_lineHolds hvalid (lineHolds_canonicalJson hwritable) ?_ hnone
  rw [addDetails_nil]
  exact hsame

/-! ## Altered lines -/

/-- A line with the hash of a record, but with another event, number or previous hash. -/
def Altered (record : EventHistoryRecord) (line : Text) : Prop :=
  ∃ fields, LineHolds line (.obj fields) ∧ field fields "recordSha256" = .str record.recordSha256 ∧
    ¬(field fields "sequence" = .num record.sequence ∧
      SameJson (field fields "event") (.obj record.event.fields) ∧
      field fields "previousRecordSha256" = .str record.previousRecordSha256)

/-- A line whose event is the one of the record, of a wake alarm that has been scheduled or
cancelled, but for more fields in its details. -/
def AddsDetails (record : EventHistoryRecord) (line : Text) : Prop :=
  isLoose record.event.operation record.event.status = true ∧ record.event.details.isSome = true ∧
    ∃ fields extra, extra ≠ [] ∧ LineHolds line (.obj fields) ∧
      SameJson (.obj fields) (.obj (record.addDetails extra).fields)

/-- The details that such a line holds. -/
theorem exists_details {record : EventHistoryRecord} {fields extra details : Fields}
    (hjs : IsJs (.obj fields)) (hdetails : record.event.details = some details)
    (hsame : SameJson (.obj fields) (.obj (record.addDetails extra).fields)) :
    ∃ event raw, fields.lookup "event" = some (.obj event) ∧ (event.map Prod.fst).Nodup ∧
      event.lookup "details" = some (.obj raw) ∧ (raw.map Prod.fst).Nodup ∧
      SameJson (.obj raw) (.obj (details ++ extra)) := by
  have hlookup := (sameJson_obj hjs.1 (record.addDetails extra).nodup_names_fields).mp hsame
  obtain ⟨event, hevent, hsameEvent⟩ :=
    record_of_lookup (hlookup "event") (record.addDetails extra).lookup_fields.2.2.1
  have heventJs := isJs_of_lookup hjs hevent
  have hmore : (record.event.addDetails extra).fields.lookup "details" =
      some (.obj (details ++ extra)) := by
    rw [AdministrativeEvent.lookup_details, AdministrativeEvent.addDetails, hdetails]
    rfl
  obtain ⟨raw, hraw, hsameRaw⟩ := record_of_lookup ((sameJson_obj heventJs.1
    (record.event.addDetails extra).nodup_names_fields).mp hsameEvent "details") hmore
  exact ⟨event, raw, hevent, heventJs.1, hraw, (isJs_of_lookup heventJs hraw).1, hsameRaw⟩

/-- A line with more details is altered. -/
theorem AddsDetails.altered {record : EventHistoryRecord} {line : Text}
    (h : AddsDetails record line) : Altered record line := by
  obtain ⟨-, hsome, fields, extra, hextra, hline, hsame⟩ := h
  obtain ⟨details, hdetails⟩ := Option.isSome_iff_exists.mp hsome
  have hjs := hline.isRead.2
  have hlookup := (sameJson_obj hjs.1 (record.addDetails extra).nodup_names_fields).mp hsame
  obtain ⟨event, raw, hevent, hnodup, hraw, -, hsameRaw⟩ := exists_details hjs hdetails hsame
  refine ⟨fields, hline, field_of_lookup (lookup_eq_of_flat (hlookup _)
    (record.addDetails extra).lookup_fields.2.2.2.2 trivial), fun hnot => ?_⟩
  -- The details would have as many fields with the extra ones as without.
  have hsameEvent := hnot.2.1
  rw [field_of_lookup hevent] at hsameEvent
  have hdetailsLookup : record.event.fields.lookup "details" = some (.obj details) := by
    rw [AdministrativeEvent.lookup_details, hdetails]
    rfl
  obtain ⟨raw', hraw', hsameRaw'⟩ := record_of_lookup
    ((sameJson_obj hnodup record.event.nodup_names_fields).mp hsameEvent "details") hdetailsLookup
  rw [hraw] at hraw'
  obtain rfl := JsValue.obj.inj (Option.some.inj hraw')
  have hwith := (names_perm_of_sameJson hsameRaw).length_eq
  have hwithout := (names_perm_of_sameJson hsameRaw').length_eq
  rw [List.length_map, List.length_map, List.length_append] at hwith
  rw [List.length_map, List.length_map] at hwithout
  exact hextra (List.eq_nil_of_length_eq_zero (by omega))

/-- Events that are the same are of one operation and status. -/
theorem operation_of_sameJson {a b : AdministrativeEvent}
    (h : SameJson (.obj a.fields) (.obj b.fields)) :
    a.operation = b.operation ∧ a.status = b.status ∧
      (a.details.map JsValue.obj).map sortJson = (b.details.map JsValue.obj).map sortJson := by
  have hlookup := (sameJson_obj a.nodup_names_fields b.nodup_names_fields).mp h
  have hoperation := hlookup "operation"
  have hstatus := hlookup "status"
  have hdetails := hlookup "details"
  rw [a.lookup_fields.2.2.2.2.2.1, b.lookup_fields.2.2.2.2.2.1] at hoperation
  rw [a.lookup_fields.2.2.2.2.2.2, b.lookup_fields.2.2.2.2.2.2] at hstatus
  rw [a.lookup_details, b.lookup_details] at hdetails
  have hoperationText : JsValue.str a.operation.text = .str b.operation.text :=
    Option.some.inj hoperation
  have hstatusText : JsValue.str a.status.text = .str b.status.text := Option.some.inj hstatus
  refine ⟨?_, ?_, hdetails⟩
  · have hread := AdministrativeEventOperation.oneOf_text a.operation
    rw [hoperationText, AdministrativeEventOperation.oneOf_text] at hread
    exact (Option.some.inj hread).symm
  · have hread := AdministrativeEventStatus.oneOf_text a.status
    rw [hstatusText, AdministrativeEventStatus.oneOf_text] at hread
    exact (Option.some.inj hread).symm

theorem lookup_addDetails (event : AdministrativeEvent) (extra : Fields) {name : String}
    (hname : name ≠ "details") :
    (event.addDetails extra).fields.lookup name = event.fields.lookup name := by
  have hne : (name == "details") = false := by simpa using hname
  cases hdetails : event.details <;>
    simp [AdministrativeEvent.addDetails, AdministrativeEvent.fields, hdetails, List.lookup, hne]

/-- The same details with the same more. -/
theorem sameJson_append {a b extra : Fields} (ha : (a.map Prod.fst).Nodup)
    (hb : (b.map Prod.fst).Nodup) (h : SameFields b a)
    (hnodup : ((a ++ extra).map Prod.fst).Nodup) :
    SameJson (.obj (a ++ extra)) (.obj (b ++ extra)) := by
  have hperm : ((a ++ extra).map Prod.fst).Perm ((b ++ extra).map Prod.fst) :=
    ((perm_of_lookup ha hb fun key => (h key).symm).append_right extra).map Prod.fst
  have hmore : SameFields (a ++ extra) (b ++ extra) := by
    intro name
    rw [List.lookup_append, List.lookup_append, h name]
  exact hmore.sameJson hnodup (hperm.nodup_iff.mp hnodup)

/-- More details for one of two events that are the same are more details for the other. -/
theorem event_addDetails {a b : AdministrativeEvent} (ha : Checked a) (hb : Checked b)
    (h : SameJson (.obj a.fields) (.obj b.fields)) {extra : Fields}
    (hnodup : ∀ details ∈ a.details, ((details ++ extra).map Prod.fst).Nodup) :
    SameJson (.obj (a.addDetails extra).fields) (.obj (b.addDetails extra).fields) := by
  obtain ⟨-, -, hdetails⟩ := operation_of_sameJson h
  have hlookup := (sameJson_obj a.nodup_names_fields b.nodup_names_fields).mp h
  refine (sameJson_obj (AdministrativeEvent.nodup_names_fields _)
    (AdministrativeEvent.nodup_names_fields _)).mpr fun name => ?_
  by_cases hname : name = "details"
  · rw [hname, AdministrativeEvent.lookup_details, AdministrativeEvent.lookup_details,
      AdministrativeEvent.addDetails, AdministrativeEvent.addDetails]
    cases hda : a.details with
    | none =>
        rw [hda, Option.map_none, Option.map_none, eq_comm, Option.map_eq_none_iff,
          Option.map_eq_none_iff] at hdetails
        rw [hdetails]
    | some da =>
        rw [hda, Option.map_some, Option.map_some, eq_comm, Option.map_eq_some_iff] at hdetails
        obtain ⟨value, hvalue, hsorted⟩ := hdetails
        obtain ⟨db, hdb, rfl⟩ := Option.map_eq_some_iff.mp hvalue
        obtain ⟨hna, hfa⟩ := details_of_checked ha hda
        obtain ⟨hnb, -⟩ := details_of_checked hb hdb
        have hfields : SameFields db da :=
          sameFields_of_sameJson hnb hna (fun f hf => (hfa f hf).2.2) hsorted
        rw [hdb]
        exact congrArg some (sameJson_append hna hnb hfields (hnodup da hda))
  · rw [lookup_addDetails a extra hname, lookup_addDetails b extra hname, hlookup name]

/-- **The lines that betray a collision**: a line with the hash of a record and something else
altered, if it is read at all, is read as a record whose text has the same hash, unless only more
details were added where the check does not look at them. -/
theorem collision_of_altered {record read : EventHistoryRecord} (hvalid : record.Valid sha256)
    {line : Text} (haltered : Altered record line) (hadds : ¬AddsDetails record line)
    (hread : parseEventHistoryRecordLine sha256 line = .ok read) :
    serializeEventHistoryRecordForHash read ≠ serializeEventHistoryRecordForHash record ∧
      sha256 (serializeEventHistoryRecordForHash read) =
        sha256 (serializeEventHistoryRecordForHash record) := by
  obtain ⟨fields, hline, hhash, hdiffers⟩ := haltered
  obtain ⟨value, hvalue, hcreate⟩ := parseEventHistoryRecordLine_eq_ok.mp hread
  obtain rfl := hvalue.unique hline
  obtain ⟨hisRead, hjs⟩ := hline.isRead
  have hreads := createEventHistoryRecord_eq_ok.mp hcreate
  have hreadValid := valid_of_createEventHistoryRecord hjs hcreate
  have hrecordSha256 : read.recordSha256 = record.recordSha256 := by
    have hfield := hreads.recordSha256.1
    rw [hhash] at hfield
    exact (JsValue.str.inj hfield).symm
  refine ⟨fun htext => ?_, by rw [hreads.hash, hvalid.hash, hrecordSha256]⟩
  obtain ⟨hsequence, hevent, hprevious⟩ := hreadValid.eq_of_serializeForHash hvalid htext
  obtain ⟨extra, hsame, hloose⟩ := createEventHistoryRecord_sameJson hisRead hjs hcreate
  obtain ⟨hoperation, hstatus, hdetails⟩ := operation_of_sameJson hevent
  by_cases hextra : extra = []
  · -- Nothing was added, so nothing differs.
    rw [hextra, addDetails_nil] at hsame
    have hlookup := (sameJson_obj hjs.1 read.nodup_names_fields).mp hsame
    obtain ⟨event, heventLookup, hsameEvent⟩ :=
      record_of_lookup (hlookup "event") read.lookup_fields.2.2.1
    refine hdiffers ⟨?_, ?_, ?_⟩
    · rw [hreads.sequence.1, hsequence]
    · rw [field_of_lookup heventLookup]
      exact hsameEvent.trans hevent
    · rw [hreads.previousRecordSha256.1, hprevious]
  · obtain ⟨hreadLoose, hsome⟩ := hloose hextra
    refine hadds ⟨by rw [← hoperation, ← hstatus]; exact hreadLoose, ?_, fields, extra, hextra,
      hline, ?_⟩
    · have hdefined := congrArg Option.isSome hdetails
      simp only [Option.isSome_map] at hdefined
      rw [← hdefined]
      exact hsome
    · refine hsame.trans (EventHistoryRecord.same_of_unsigned (a := read.addDetails extra)
        (b := record.addDetails extra) hsequence ?_ hprevious hrecordSha256)
      refine event_addDetails hreadValid.checked hvalid.checked hevent fun details hmem => ?_
      obtain ⟨-, raw, -, -, -, hraw, hsameRaw⟩ := exists_details hjs hmem hsame
      exact (names_perm_of_sameJson hsameRaw).nodup_iff.mp hraw

/-- **Lines of the history**: the record of an event is read back from its line, the event passes
its check again, and a line with the record's hash and something else altered is read only where
two texts have one hash; all this iff the line does not add details to the event of a wake alarm
that has been scheduled or cancelled. -/
theorem recordLines_iff (hsha256 : ∀ text, isSha256 (sha256 text) = true)
    {event : AdministrativeEvent} {previousRecordSha256 : String} (hevent : Checked event)
    (hprevious : isSha256 previousRecordSha256 = true) :
    ∃ record, createNextEventHistoryRecord sha256 event previousRecordSha256 = .ok record ∧
      ∀ line,
        ((∃ read, parseEventHistoryRecordLine sha256 (serializeEventHistoryRecord record) = .ok read ∧
            read.Same record) ∧
          createAdministrativeEvent (.obj event.fields) = .ok event ∧
          (Altered record line → ∀ read, parseEventHistoryRecordLine sha256 line = .ok read →
            serializeEventHistoryRecordForHash read ≠ serializeEventHistoryRecordForHash record ∧
            sha256 (serializeEventHistoryRecordForHash read) =
              sha256 (serializeEventHistoryRecordForHash record))) ↔
        ¬AddsDetails record line := by
  obtain ⟨record, hrecord, -, -, hvalid⟩ :=
    createNextEventHistoryRecord_valid hsha256 hevent hprevious
  refine ⟨record, hrecord, fun line => ⟨fun h hadds => ?_, fun hadds => ⟨?_, ?_, ?_⟩⟩⟩
  · obtain ⟨hloose, -, fields, extra, -, hline, hsame⟩ := id hadds
    obtain ⟨read, hread, -, htext⟩ := parse_of_lineHolds hvalid hline hsame fun _ => hloose
    exact (h.2.2 hadds.altered read hread).1 htext
  · obtain ⟨read, hread, hsame, -⟩ := parse_serialize hvalid
    exact ⟨read, hread, hsame⟩
  · exact createAdministrativeEvent_again hevent
  · exact fun haltered read hread => collision_of_altered hvalid haltered hadds hread

/-! ### A wake alarm that has been cancelled -/

def wakeAlarmCancelled : AdministrativeEvent where
  sequence := 1
  attemptId := "11111111-1111-4111-8111-111111111111"
  occurredAt := "2026-01-01T00:00:00.000Z"
  source := ⟨.administrative, "unattributed-local"⟩
  operation := .cancelWakeAlarm
  status := .succeeded
  details := some [("mutationOutcome", .str "cancelled")]

def genesisHash : String := "0000000000000000000000000000000000000000000000000000000000000000"

theorem checked_wakeAlarmCancelled : Checked wakeAlarmCancelled := by
  refine ⟨.obj wakeAlarmCancelled.fields, ⟨by decide, ?_⟩, by decide⟩
  have hunits : ∀ text ∈ ["sequence", "attemptId", "11111111-1111-4111-8111-111111111111",
      "occurredAt", "2026-01-01T00:00:00.000Z", "source", "kind", "administrative", "actorId",
      "unattributed-local", "target", "machine", "id", "atlas", "operation", "cancel_wake_alarm",
      "status", "succeeded", "details", "mutationOutcome", "cancelled"], IsUnits text :=
    isUnits_of_all (by decide)
  have hsource : IsJs (.obj (sourceFields wakeAlarmCancelled.source)) :=
    ⟨by decide, hunits _ (by decide), hunits "administrative" (by decide), hunits _ (by decide),
      hunits "unattributed-local" (by decide), trivial⟩
  have htarget : IsJs (.obj targetFields) :=
    ⟨by decide, hunits _ (by decide), hunits "machine" (by decide), hunits _ (by decide),
      hunits "atlas" (by decide), trivial⟩
  have hdetails : IsJs (.obj [("mutationOutcome", .str "cancelled")]) :=
    ⟨by decide, hunits _ (by decide), hunits "cancelled" (by decide), trivial⟩
  exact ⟨hunits "sequence" (by decide), trivial, hunits "attemptId" (by decide),
    hunits "11111111-1111-4111-8111-111111111111" (by decide), hunits "occurredAt" (by decide),
    hunits "2026-01-01T00:00:00.000Z" (by decide), hunits "source" (by decide), hsource,
    hunits "target" (by decide), htarget, hunits "operation" (by decide),
    hunits "cancel_wake_alarm" (by decide), hunits "status" (by decide),
    hunits "succeeded" (by decide), hunits "details" (by decide), hdetails, trivial⟩

/-- The history of this event begins with a record that is read back; its hash is the SHA-256 digest
of the canonical text of the record. -/
theorem recordLines_wakeAlarmCancelled :
    ∃ record, createNextEventHistoryRecord
      (fun _ => "600e37e6c52b66002b6ce9b072acd5b3e2285bb4282f16eeded4ff4d5045cef7")
      wakeAlarmCancelled genesisHash = .ok record ∧
      ∀ line,
        ((∃ read, parseEventHistoryRecordLine
            (fun _ => "600e37e6c52b66002b6ce9b072acd5b3e2285bb4282f16eeded4ff4d5045cef7")
            (serializeEventHistoryRecord record) = .ok read ∧ read.Same record) ∧
          createAdministrativeEvent (.obj wakeAlarmCancelled.fields) = .ok wakeAlarmCancelled ∧
          (Altered record line → ∀ read, parseEventHistoryRecordLine
              (fun _ => "600e37e6c52b66002b6ce9b072acd5b3e2285bb4282f16eeded4ff4d5045cef7") line =
              .ok read →
            serializeEventHistoryRecordForHash read ≠ serializeEventHistoryRecordForHash record ∧
            "600e37e6c52b66002b6ce9b072acd5b3e2285bb4282f16eeded4ff4d5045cef7" = "600e37e6c52b66002b6ce9b072acd5b3e2285bb4282f16eeded4ff4d5045cef7")) ↔
        ¬AddsDetails record line :=
  recordLines_iff (fun _ => by decide +kernel) checked_wakeAlarmCancelled (by decide +kernel)

/-- A line with a note in the details of the event is read, and its event hashes the same text. -/
theorem accepts_note : ¬∀ (sha256 : Text → String), (∀ text, isSha256 (sha256 text) = true) →
    ∀ (event : AdministrativeEvent) (previousRecordSha256 : String) (record : EventHistoryRecord),
      Checked event → createNextEventHistoryRecord sha256 event previousRecordSha256 = .ok record →
      ∀ line, Altered record line → ∀ read, parseEventHistoryRecordLine sha256 line = .ok read →
        serializeEventHistoryRecordForHash read ≠ serializeEventHistoryRecordForHash record ∧
        sha256 (serializeEventHistoryRecordForHash read) =
          sha256 (serializeEventHistoryRecordForHash record) := by
  intro h
  have hgenesis : isSha256 genesisHash = true := by decide +kernel
  have hsha256 : ∀ text : Text, isSha256 ((fun _ => genesisHash) text) = true := fun _ => hgenesis
  obtain ⟨record, hrecord, hevent, -, hvalid⟩ :=
    createNextEventHistoryRecord_valid hsha256 checked_wakeAlarmCancelled hgenesis
  have hloose : isLoose record.event.operation record.event.status = true := by
    rw [hevent]
    rfl
  have hwritable : IsWritable (.obj (record.addDetails [("note", .str "moved")]).fields) := by
    have hunits : ∀ text ∈ ["mutationOutcome", "cancelled", "note", "moved"], IsUnits text := by
      decide +kernel
    have hdetails : IsWritable
        (.obj [("mutationOutcome", .str "cancelled"), ("note", .str "moved")]) :=
      ⟨by decide, hunits _ (by decide), hunits "cancelled" (by decide), hunits _ (by decide),
        hunits "moved" (by decide), trivial⟩
    obtain ⟨hnames, n₁, v₁, n₂, v₂, n₃, v₃, hrest⟩ := hvalid.isWritable_fields.2
    rw [hevent] at v₃
    obtain ⟨hevents, m₁, w₁, m₂, w₂, m₃, w₃, m₄, w₄, m₅, w₅, m₆, w₆, m₇, w₇, m₈, -⟩ := v₃
    refine ⟨hnames, n₁, v₁, n₂, v₂, n₃, ?_, hrest⟩
    rw [EventHistoryRecord.addDetails, hevent]
    exact ⟨hevents, m₁, w₁, m₂, w₂, m₃, w₃, m₄, w₄, m₅, w₅, m₆, w₆, m₇, w₇, m₈, hdetails, trivial⟩
  have hline := lineHolds_canonicalJson hwritable
  have hadds : AddsDetails record
      (canonicalJson (.obj (record.addDetails [("note", .str "moved")]).fields) ++ [0x0A]) :=
    ⟨hloose, by rw [hevent]; rfl, _, [("note", .str "moved")], by simp, hline,
      sortJson_sortJson hwritable⟩
  obtain ⟨read, hread, -, htext⟩ :=
    parse_of_lineHolds hvalid hline (sortJson_sortJson hwritable) fun _ => hloose
  exact (h _ hsha256 _ _ record checked_wakeAlarmCancelled hrecord _ hadds.altered read hread).1
    htext

end AtlasManager.EventHistory
