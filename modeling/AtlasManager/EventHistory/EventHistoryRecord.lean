import AtlasManager.EventHistory.CheckedDetails
import AtlasManager.EventHistory.CanonicalJson

/-!
# AtlasManager.EventHistory.EventHistoryRecord

The records of the event history, each with the hash of the one before it.

* `createNextEventHistoryRecord`, `serializeEventHistoryRecord`, `parseEventHistoryRecordLine` -- a
  record, the line that is written of it, and a line that is read;
* `createAdministrativeEvent_eq_ok` -- what a check of an event has read;
* `sameFields_source`, `sameFields_target` -- a source and a target are what has been read.
-/

namespace AtlasManager.EventHistory

open AtlasManager.Lib AtlasManager.Lib.Rfc8259 AtlasManager.Backup AtlasManager.AccessControl
open AtlasManager.Config (parseStrictJson StrictJsonDecodeErrorCode)

/-! ## Events of the history -/

/-- An event with its number in the history. -/
structure AdministrativeEvent extends AdministrativeEventInput where
  sequence : Nat
  deriving DecidableEq

/-- The number of a value that is a safe integer above zero. -/
def positiveInteger? (value : JsValue) : Option Nat :=
  match value.integer? with
  | some n => if 1 ≤ n ∧ n ≤ 2 ^ 53 - 1 then some n.toNat else none
  | none => none

/-- Where an event comes from, as fields. -/
def sourceFields (source : AdministrativeEventSource) : Fields :=
  [("kind", .str source.kind.text), ("actorId", .str source.actorId)]

/-- The machine is the only target. -/
def targetFields : Fields := [("kind", .str "machine"), ("id", .str "atlas")]

/-- The fields of an event in the order of the source, with details where it has some. -/
def AdministrativeEvent.fields (event : AdministrativeEvent) : Fields :=
  [("sequence", .num event.sequence), ("attemptId", .str event.attemptId),
    ("occurredAt", .str event.occurredAt), ("source", .obj (sourceFields event.source)),
    ("target", .obj targetFields), ("operation", .str event.operation.text),
    ("status", .str event.status.text)] ++
  event.details.toList.map fun details => ("details", .obj details)

/-- The fields of an event that is to be recorded. -/
def inputNames : List String :=
  ["attemptId", "occurredAt", "source", "target", "operation", "status", "details"]

/-- The fields of an event that was recorded. -/
def eventNames : List String := "sequence" :: inputNames

/-- What `createAdministrativeEvent` hands on to the check without a number. -/
def inputFields (record : Fields) : Fields :=
  [("attemptId", field record "attemptId"), ("occurredAt", field record "occurredAt"),
    ("source", field record "source"), ("target", field record "target"),
    ("operation", field record "operation"), ("status", field record "status")] ++
  if hasOwn record "details" then [("details", field record "details")] else []

/-- The number is checked first, and the rest as an event that is to be recorded. -/
def createAdministrativeEvent (input : JsValue) : Check AdministrativeEvent := do
  let record ← requireRecord input
  assertFields record eventNames
  match positiveInteger? (field record "sequence") with
  | none => .error .invalidSequence
  | some sequence =>
    let event ← createAdministrativeEventInput (.obj (inputFields record))
    return { event with sequence }

/-! ## Records -/

/-- A link of the chain: an event, the hash of the link before it and its own. -/
structure EventHistoryRecord where
  sequence : Nat
  event : AdministrativeEvent
  previousRecordSha256 : String
  recordSha256 : String
  deriving DecidableEq

/-- What can be wrong with a record. -/
inductive EventHistoryRecordError where
  | recordInvalid
  | fieldsInvalid
  | versionInvalid
  | sequenceInvalid
  | event (code : AdministrativeEventValidationErrorCode)
  | sequenceMismatch
  | hashInvalid
  | recordHashInvalid
  | lineInvalid
  | json (code : StrictJsonDecodeErrorCode)
  deriving DecidableEq

/-- What the hash of a record is taken of. -/
def EventHistoryRecord.unsignedFields (record : EventHistoryRecord) : Fields :=
  [("schemaVersion", .num 2), ("sequence", .num record.sequence), ("event", .obj record.event.fields),
    ("previousRecordSha256", .str record.previousRecordSha256)]

/-- What is written of a record. -/
def EventHistoryRecord.fields (record : EventHistoryRecord) : Fields :=
  record.unsignedFields ++ [("recordSha256", .str record.recordSha256)]

/-- The text that is hashed. -/
def serializeEventHistoryRecordForHash (record : EventHistoryRecord) : Text :=
  canonicalJson (.obj record.unsignedFields)

/-- The line of a record. -/
def serializeEventHistoryRecord (record : EventHistoryRecord) : Text :=
  canonicalJson (.obj record.fields) ++ [0x0A]

/-- A record has exactly these fields. -/
def recordNames : List String :=
  ["schemaVersion", "sequence", "event", "previousRecordSha256", "recordSha256"]

section Records

/- `sha256` gives the hexadecimal digest of the bytes of a text. -/
variable (sha256 : Text → String)

/-- The hash is computed anew of what has been read, so a record cannot be changed alone. -/
def createEventHistoryRecord (input : JsValue) : Except EventHistoryRecordError EventHistoryRecord :=
  match input with
  | .obj record =>
    if !hasExactFields record recordNames then .error .fieldsInvalid
    else if field record "schemaVersion" ≠ .num 2 then .error .versionInvalid
    else
      match positiveInteger? (field record "sequence") with
      | none => .error .sequenceInvalid
      | some sequence =>
        match createAdministrativeEvent (field record "event") with
        | .error code => .error (.event code)
        | .ok event =>
          if event.sequence ≠ sequence then .error .sequenceMismatch
          else
            match field record "previousRecordSha256", field record "recordSha256" with
            | .str previousRecordSha256, .str recordSha256 =>
              if !isSha256 previousRecordSha256 || !isSha256 recordSha256 then .error .hashInvalid
              else
                let made : EventHistoryRecord := ⟨sequence, event, previousRecordSha256, recordSha256⟩
                if sha256 (serializeEventHistoryRecordForHash made) ≠ recordSha256 then
                  .error .recordHashInvalid
                else .ok made
            | _, _ => .error .hashInvalid
  | _ => .error .recordInvalid

/-- The record of a new event behind the record with a hash. -/
def createNextEventHistoryRecord (event : AdministrativeEvent) (previousRecordSha256 : String) :
    Except EventHistoryRecordError EventHistoryRecord :=
  if !isSha256 previousRecordSha256 then .error .hashInvalid
  else
    let unsigned : EventHistoryRecord := ⟨event.sequence, event, previousRecordSha256, ""⟩
    .ok { unsigned with recordSha256 := sha256 (serializeEventHistoryRecordForHash unsigned) }

/-- A line is one strict JSON text and a line feed. -/
def parseEventHistoryRecordLine (line : Text) : Except EventHistoryRecordError EventHistoryRecord :=
  if line.getLast? ≠ some 0x0A || 0x0D ∈ line then .error .lineInvalid
  else
    match parseStrictJson line.dropLast with
    | .error code => .error (.json code)
    | .ok parsed => createEventHistoryRecord sha256 (jsValue parsed)

end Records

/-! ## What the check of an event reads -/

/-- A number is read exactly where it is a natural one in the range of safe integers. -/
theorem positiveInteger?_eq_some {value : JsValue} {n : Nat} :
    positiveInteger? value = some n ↔ value = .num n ∧ 1 ≤ n ∧ n < 2 ^ 53 := by
  rw [positiveInteger?]
  cases value with
  | num q =>
      rw [JsValue.integer?]
      by_cases hden : q.den = 1
      · rw [if_pos hden]
        have hq : (q.num : Rat) = q := Rat.coe_int_num_of_den_eq_one hden
        dsimp only
        by_cases hrange : 1 ≤ q.num ∧ q.num ≤ 2 ^ 53 - 1
        · rw [if_pos hrange, Option.some.injEq, JsValue.num.injEq]
          constructor
          · rintro rfl
            have hnum : (q.num.toNat : Int) = q.num := Int.toNat_of_nonneg (by omega)
            refine ⟨?_, by omega, by omega⟩
            conv_lhs => rw [← hq, ← hnum]
            rfl
          · rintro ⟨rfl, -⟩
            exact Int.toNat_natCast n
        · rw [if_neg hrange]
          simp only [reduceCtorEq, JsValue.num.injEq, false_iff, not_and]
          rintro rfl hpos
          rw [Rat.num_natCast] at hrange
          omega
      · rw [if_neg hden]
        simp only [reduceCtorEq, JsValue.num.injEq, false_iff, not_and]
        rintro rfl
        exact absurd rfl hden
  | _ => simp [JsValue.integer?]

/-- Only the canonical text of an instant is read as one. -/
theorem str_of_timestamp? {value : JsValue} {t : Timestamp} (h : value.timestamp? = some t) :
    value = .str t.text := by
  cases value with
  | str s => rw [Timestamp.text_ofText? h]
  | _ => cases h

/-- What the check of an event has read of a record. -/
structure ReadsEvent (record : Fields) (event : AdministrativeEventInput) : Prop where
  source : createSource (field record "source") = .ok event.source
  target : createTarget (field record "target") = .ok ()
  operation : field record "operation" = .str event.operation.text
  status : field record "status" = .str event.status.text
  attemptId : field record "attemptId" = .str event.attemptId
  isAttemptId : isRunId event.attemptId = true
  occurredAt : field record "occurredAt" = .str event.occurredAt
  isCanonical : ∃ t : Timestamp, t.text = event.occurredAt
  details : (if hasOwn record "details" then
    createDetails event.operation event.status (field record "details") else .ok none) = .ok event.details

/-- **An event to be recorded** is accepted exactly where its fields are known and each of them is read. -/
theorem createAdministrativeEventInput_eq_ok {record : Fields} {event : AdministrativeEventInput} :
    createAdministrativeEventInput (.obj record) = .ok event ↔
      assertFields record inputNames = .ok () ∧ ReadsEvent record event := by
  constructor
  · intro h
    simp only [createAdministrativeEventInput, requireRecord, ok_bind, bind_eq_ok] at h
    obtain ⟨u, hnames, source, hsource, v, htarget, h⟩ := h
    cases hoperation : oneOf AdministrativeEventOperation.all AdministrativeEventOperation.text
        (field record "operation") with
    | none => simp [hoperation] at h
    | some operation =>
        simp only [hoperation] at h
        cases hstatus : oneOf AdministrativeEventStatus.all AdministrativeEventStatus.text
            (field record "status") with
        | none => simp [hstatus] at h
        | some status =>
            simp only [hstatus] at h
            cases hattempt : field record "attemptId" with
            | str attemptId =>
                simp only [hattempt] at h
                by_cases hid : isRunId attemptId = true
                · simp only [hid, Bool.not_true, Bool.false_eq_true, if_false] at h
                  cases htime : (field record "occurredAt").timestamp? with
                  | none => simp [htime] at h
                  | some t =>
                      simp only [htime] at h
                      by_cases hown : hasOwn record "details" = true
                      · simp only [hown, if_true, bind_eq_ok] at h
                        obtain ⟨details, hdetails, h⟩ := h
                        obtain rfl := Except.ok.inj h
                        exact ⟨hnames, hsource, htarget, text_of_oneOf hoperation,
                          text_of_oneOf hstatus, hattempt, hid, str_of_timestamp? htime, ⟨t, rfl⟩,
                          by rw [if_pos hown]; exact hdetails⟩
                      · simp only [hown, Bool.false_eq_true, if_false, bind_eq_ok] at h
                        obtain ⟨details, hdetails, h⟩ := h
                        obtain rfl := Except.ok.inj h
                        exact ⟨hnames, hsource, htarget, text_of_oneOf hoperation,
                          text_of_oneOf hstatus, hattempt, hid, str_of_timestamp? htime, ⟨t, rfl⟩,
                          by rw [if_neg hown]; exact hdetails⟩
                · simp [hid] at h
            | _ => simp [hattempt] at h
  · intro h
    obtain ⟨hnames, hreads⟩ := h
    obtain ⟨t, ht⟩ := hreads.isCanonical
    have htime : (field record "occurredAt").timestamp? = some t := by
      rw [hreads.occurredAt, ← ht, JsValue.timestamp?_text]
    rw [inputNames] at hnames
    have hdetails := hreads.details
    simp only [createAdministrativeEventInput, requireRecord, ok_bind, hnames, hreads.source,
      hreads.target, hreads.operation, hreads.status, hreads.attemptId, hreads.isAttemptId, htime,
      AdministrativeEventOperation.oneOf_text, AdministrativeEventStatus.oneOf_text, Bool.not_true,
      Bool.false_eq_true, if_false]
    by_cases hown : hasOwn record "details" = true
    · rw [if_pos hown] at hdetails ⊢
      rw [hdetails, ok_bind, ht]
      rfl
    · rw [if_neg hown] at hdetails ⊢
      have hnone : event.details = none := (Except.ok.inj hdetails).symm
      show Except.ok _ = Except.ok event
      rw [ht, ← hnone]

/-- Details may be left out, every other field has to be there. -/
theorem assertFields_eq_ok {record : Fields} {names : List String} {u : Unit} :
    assertFields record names = .ok u ↔ hasFieldOutside names record = false ∧
      (names.filter (· ≠ "details")).length ≤ record.length := by
  rw [assertFields, require_eq_ok, Bool.and_eq_true, Bool.not_eq_true', decide_eq_true_eq]

/-- What is handed on is what was read. -/
theorem field_inputFields (record : Fields) :
    ∀ name ∈ inputNames, field (inputFields record) name = field record name := by
  intro name hname
  simp only [inputNames, List.mem_cons, List.not_mem_nil, or_false] at hname
  by_cases hown : hasOwn record "details" = true
  · rw [inputFields, if_pos hown]
    rcases hname with rfl | rfl | rfl | rfl | rfl | rfl | rfl <;> simp [field, List.lookup]
  · rw [inputFields, if_neg hown]
    have hnone : field record "details" = .undefined := by
      rw [hasOwn, Bool.not_eq_true, Option.isSome_eq_false_iff, Option.isNone_iff_eq_none] at hown
      rw [field, hown]
      rfl
    rcases hname with rfl | rfl | rfl | rfl | rfl | rfl | rfl
    · simp [field]
    · simp [field, List.lookup]
    · simp [field, List.lookup]
    · simp [field, List.lookup]
    · simp [field, List.lookup]
    · simp [field, List.lookup]
    · rw [hnone]
      simp [field, List.lookup]

/-- Details are handed on where there are some. -/
theorem hasOwn_inputFields (record : Fields) :
    hasOwn (inputFields record) "details" = hasOwn record "details" := by
  by_cases hown : hasOwn record "details" = true
  · rw [inputFields, if_pos hown, hown]
    simp [hasOwn, List.lookup]
  · have hno : hasOwn record "details" = false := by simpa using hown
    rw [inputFields, if_neg hown, hno]
    simp [hasOwn, List.lookup]

/-- What is handed on has the fields that are asked for. -/
theorem assertFields_inputFields (record : Fields) :
    assertFields (inputFields record) inputNames = .ok () := by
  rw [assertFields_eq_ok, inputFields, inputNames]
  by_cases hown : hasOwn record "details" = true
  · rw [if_pos hown]
    simp [hasFieldOutside]
  · rw [if_neg hown]
    simp [hasFieldOutside]

/-- The check reads the named fields only. -/
theorem ReadsEvent.congr {a b : Fields} {event : AdministrativeEventInput} (h : ReadsEvent a event)
    (hfields : ∀ name ∈ inputNames, field b name = field a name)
    (hown : hasOwn b "details" = hasOwn a "details") : ReadsEvent b event where
  source := by rw [hfields "source" (by decide)]; exact h.source
  target := by rw [hfields "target" (by decide)]; exact h.target
  operation := by rw [hfields "operation" (by decide)]; exact h.operation
  status := by rw [hfields "status" (by decide)]; exact h.status
  attemptId := by rw [hfields "attemptId" (by decide)]; exact h.attemptId
  isAttemptId := h.isAttemptId
  occurredAt := by rw [hfields "occurredAt" (by decide)]; exact h.occurredAt
  isCanonical := h.isCanonical
  details := by rw [hfields "details" (by decide), hown]; exact h.details

/-- **What the check of an event** has read of a record. -/
theorem createAdministrativeEvent_eq_ok {record : Fields} {event : AdministrativeEvent} :
    createAdministrativeEvent (.obj record) = .ok event ↔
      assertFields record eventNames = .ok () ∧
      (field record "sequence" = .num event.sequence ∧ 1 ≤ event.sequence ∧ event.sequence < 2 ^ 53) ∧
      ReadsEvent record event.toAdministrativeEventInput := by
  have hto : ∀ {input}, ReadsEvent (inputFields record) input → ReadsEvent record input := fun h =>
    h.congr (fun name hname => (field_inputFields record name hname).symm) (hasOwn_inputFields record).symm
  have hfrom : ∀ {input}, ReadsEvent record input → ReadsEvent (inputFields record) input := fun h =>
    h.congr (field_inputFields record) (hasOwn_inputFields record)
  constructor
  · intro h
    simp only [createAdministrativeEvent, requireRecord, ok_bind, bind_eq_ok] at h
    obtain ⟨u, hnames, h⟩ := h
    cases hsequence : positiveInteger? (field record "sequence") with
    | none => simp [hsequence] at h
    | some sequence =>
        simp only [hsequence, bind_eq_ok] at h
        obtain ⟨input, hinput, h⟩ := h
        obtain rfl := Except.ok.inj h
        exact ⟨hnames, positiveInteger?_eq_some.mp hsequence,
          hto (createAdministrativeEventInput_eq_ok.mp hinput).2⟩
  · intro h
    obtain ⟨hnames, hsequence, hreads⟩ := h
    simp only [createAdministrativeEvent, requireRecord, ok_bind, hnames,
      positiveInteger?_eq_some.mpr hsequence]
    rw [createAdministrativeEventInput_eq_ok.mpr ⟨assertFields_inputFields record, hfrom hreads⟩]
    rfl

/-! ## Sources and targets -/

/-- A checked source has the two fields and no other. -/
theorem sameFields_source {record : Fields} {source : AdministrativeEventSource}
    (h : createSource (.obj record) = .ok source) : SameFields (sourceFields source) record := by
  simp only [createSource, requireRecord, ok_bind, bind_eq_ok, assertFields_eq_ok] at h
  obtain ⟨u, ⟨hallowed, -⟩, h⟩ := h
  have hfields : field record "kind" = .str source.kind.text ∧
      field record "actorId" = .str source.actorId := by
    split at h
    · rename_i actorId hkind hactor
      simp only [bind_eq_ok] at h
      obtain ⟨-, -, h⟩ := h
      obtain rfl := Except.ok.inj h
      exact ⟨hkind, hactor⟩
    · rename_i hkind hactor
      obtain rfl := Except.ok.inj h
      exact ⟨hkind, hactor⟩
    · rename_i hkind hactor
      obtain rfl := Except.ok.inj h
      exact ⟨hkind, hactor⟩
    · cases h
  show SameFields (freezeDefined [("kind", some (.str source.kind.text)),
    ("actorId", some (.str source.actorId))]) record
  refine sameFields_freezeDefined (by simp) ?_ hallowed
  simp only [List.forall_mem_cons, List.not_mem_nil, false_implies, implies_true, and_true]
  exact ⟨reads_of_field hfields.1 (by simp) trivial, reads_of_field hfields.2 (by simp) trivial⟩

/-- The order of the fields of a source does not matter. -/
theorem createSource_congr {a b : Fields} (h : SameFields a b) (hlength : a.length = b.length) :
    createSource (.obj a) = createSource (.obj b) := by
  simp only [createSource, requireRecord, ok_bind, assertFields, h.field, h.hasFieldOutside, hlength]

/-- A checked target is the machine. -/
theorem sameFields_target {record : Fields} (h : createTarget (.obj record) = .ok ()) :
    SameFields targetFields record := by
  simp only [createTarget, requireRecord, ok_bind, bind_eq_ok, assertFields_eq_ok, require_eq_ok,
    Bool.and_eq_true, decide_eq_true_eq] at h
  obtain ⟨u, ⟨hallowed, -⟩, hkind, hid⟩ := h
  show SameFields (freezeDefined [("kind", some (.str "machine")), ("id", some (.str "atlas"))]) record
  refine sameFields_freezeDefined (by simp) ?_ hallowed
  simp only [List.forall_mem_cons, List.not_mem_nil, false_implies, implies_true, and_true]
  exact ⟨reads_of_field hkind (by simp) trivial, reads_of_field hid (by simp) trivial⟩

/-- The order of the fields of a target does not matter. -/
theorem createTarget_congr {a b : Fields} (h : SameFields a b) (hlength : a.length = b.length) :
    createTarget (.obj a) = createTarget (.obj b) := by
  simp only [createTarget, requireRecord, ok_bind, assertFields, h.field, h.hasFieldOutside, hlength]

end AtlasManager.EventHistory
