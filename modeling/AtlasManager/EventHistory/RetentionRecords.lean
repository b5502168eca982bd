import AtlasManager.EventHistory.RecordLines

/-!
# AtlasManager.EventHistory.RetentionRecords

The records that a segmented history keeps beside its events: the manifests of sealed segments, the
anchors of removed ones, the metadata of exports, and the retention policy.

* `parseSegmentManifest`, `parseRetentionAnchor`, `parseExportMetadata`, `createRetentionPolicy` --
  the checks of these records;
* `decode_canonicalJson` -- what has been written of a flat record is read with the same fields;
* `parseRetentionAnchor_written`, `parseExportMetadata_written` -- anchors and metadata are read as
  they were written.
-/

namespace AtlasManager.EventHistory

open AtlasManager.Lib AtlasManager.Lib.Rfc8259 AtlasManager.Backup
open AtlasManager.Config (parseStrictJson StrictJsonDecodeErrorCode)
open Json (IsScalar IsFlat)

/-! ## Errors -/

/-- What the operations of the history throw: codes of the segmented history, and errors of the
checks of its records. -/
inductive HistoryError where
  | permissionsUnsafe
  | corrupted
  | interrupted
  | capacityExceeded
  | historyPruned
  | exportNotFound
  | exportCorrupt
  | retentionBlocked
  | recordInvalid
  | fieldsInvalid
  | hashInvalid
  | manifestInvalid
  | manifestHashInvalid
  | retentionInvalid
  | retentionAnchorInvalid
  | retentionAnchorHashInvalid
  | json (code : StrictJsonDecodeErrorCode)
  deriving DecidableEq

/-! ## Parts of the checks -/

/-- The number of a value that is a safe integer from zero on. -/
def nonNegativeInteger? (value : JsValue) : Option Nat :=
  match value.integer? with
  | some n => if 0 ≤ n ∧ n ≤ 2 ^ 53 - 1 then some n.toNat else none
  | none => none

/-- `requireRecord` and `assertExactKeys`. -/
def requireExactRecord (input : JsValue) (names : List String) : Except HistoryError Fields :=
  match input with
  | .obj record => if hasExactFields record names then .ok record else .error .fieldsInvalid
  | _ => .error .recordInvalid

/-- `assertHash`. -/
def assertHash (value : JsValue) : Except HistoryError String :=
  match value with
  | .str text => if isSha256 text then .ok text else .error .hashInvalid
  | _ => .error .hashInvalid

/-- The strict decoder, as the operations call it. -/
def decode (text : Text) : Except HistoryError JsValue :=
  match parseStrictJson text with
  | .error code => .error (.json code)
  | .ok parsed => .ok (jsValue parsed)

theorem bind_ok {ε α β : Type} {x : Except ε α} {f : α → Except ε β} {b : β} :
    (x >>= f) = .ok b ↔ ∃ a, x = .ok a ∧ f a = .ok b := by
  cases x with
  | error e => simp [bind, Except.bind]
  | ok a => simp [bind, Except.bind]

theorem nonNegativeInteger?_eq_some {value : JsValue} {n : Nat} :
    nonNegativeInteger? value = some n ↔ value = .num n ∧ n < 2 ^ 53 := by
  rw [nonNegativeInteger?]
  cases value with
  | num q =>
      rw [JsValue.integer?]
      by_cases hden : q.den = 1
      · rw [if_pos hden]
        have hq : (q.num : Rat) = q := Rat.coe_int_num_of_den_eq_one hden
        dsimp only
        by_cases hrange : 0 ≤ q.num ∧ q.num ≤ 2 ^ 53 - 1
        · rw [if_pos hrange, Option.some.injEq, JsValue.num.injEq]
          constructor
          · intro hn
            have hnum : (n : Int) = q.num := by omega
            refine ⟨?_, by omega⟩
            rw [← hq, ← hnum]
            rfl
          · intro hn
            rw [hn.1]
            exact Int.toNat_natCast n
        · rw [if_neg hrange]
          simp only [reduceCtorEq, JsValue.num.injEq, false_iff, not_and]
          intro hn
          rw [hn, Rat.num_natCast] at hrange
          omega
      · rw [if_neg hden]
        simp only [reduceCtorEq, JsValue.num.injEq, false_iff, not_and]
        intro hn
        rw [hn] at hden
        exact absurd rfl hden
  | _ => simp [JsValue.integer?]

theorem assertHash_eq_ok {value : JsValue} {text : String} :
    assertHash value = .ok text ↔ value = .str text ∧ isSha256 text = true := by
  cases value with
  | str s =>
      rw [assertHash]
      by_cases hs : isSha256 s = true
      · rw [if_pos hs, Except.ok.injEq, JsValue.str.injEq]
        grind
      · rw [if_neg hs, JsValue.str.injEq]
        grind
  | _ => simp [assertHash]

theorem requireExactRecord_eq_ok {input : JsValue} {names : List String} {record : Fields} :
    requireExactRecord input names = .ok record ↔
      input = .obj record ∧ hasExactFields record names = true := by
  cases input with
  | obj fields =>
      rw [requireExactRecord]
      by_cases hfields : hasExactFields fields names = true
      · rw [if_pos hfields, Except.ok.injEq, JsValue.obj.injEq]
        grind
      · rw [if_neg hfields, JsValue.obj.injEq]
        grind
  | _ => simp [requireExactRecord]

/-! ## Manifests of segments -/

structure EventHistorySegmentManifest where
  firstSequence : Nat
  lastSequence : Nat
  eventCount : Nat
  byteCount : Nat
  firstRecordSha256 : String
  lastRecordSha256 : String
  previousSegmentSha256 : String
  segmentContentSha256 : String
  manifestSha256 : String
  sealedAt : Timestamp
  deriving DecidableEq

def manifestNames : List String :=
  ["schemaVersion", "firstSequence", "lastSequence", "eventCount", "byteCount", "firstRecordSha256",
    "lastRecordSha256", "previousSegmentSha256", "segmentContentSha256", "manifestSha256", "sealedAt"]

/-- The fields that the hash of a manifest is taken of. -/
def EventHistorySegmentManifest.unsignedFields (manifest : EventHistorySegmentManifest) : Fields :=
  [("schemaVersion", .num 1), ("firstSequence", .num manifest.firstSequence),
    ("lastSequence", .num manifest.lastSequence), ("eventCount", .num manifest.eventCount),
    ("byteCount", .num manifest.byteCount), ("firstRecordSha256", .str manifest.firstRecordSha256),
    ("lastRecordSha256", .str manifest.lastRecordSha256),
    ("previousSegmentSha256", .str manifest.previousSegmentSha256),
    ("segmentContentSha256", .str manifest.segmentContentSha256),
    ("sealedAt", .str manifest.sealedAt.text)]

section Checks

/- `sha256` gives the hexadecimal digest of the bytes of a text. -/
variable (sha256 : Text → String)

def parseSegmentManifest (input : JsValue) : Except HistoryError EventHistorySegmentManifest := do
  let record ← requireExactRecord input manifestNames
  match positiveInteger? (field record "firstSequence"), positiveInteger? (field record "lastSequence"),
    positiveInteger? (field record "eventCount"), nonNegativeInteger? (field record "byteCount"),
    (field record "sealedAt").timestamp? with
  | some firstSequence, some lastSequence, some eventCount, some byteCount, some sealedAt =>
    if field record "schemaVersion" ≠ .num 1 || lastSequence < firstSequence ||
        eventCount ≠ lastSequence - firstSequence + 1 then
      .error .manifestInvalid
    else do
      let firstRecordSha256 ← assertHash (field record "firstRecordSha256")
      let lastRecordSha256 ← assertHash (field record "lastRecordSha256")
      let previousSegmentSha256 ← assertHash (field record "previousSegmentSha256")
      let segmentContentSha256 ← assertHash (field record "segmentContentSha256")
      let manifestSha256 ← assertHash (field record "manifestSha256")
      let manifest : EventHistorySegmentManifest :=
        { firstSequence, lastSequence, eventCount, byteCount, firstRecordSha256, lastRecordSha256,
          previousSegmentSha256, segmentContentSha256, manifestSha256, sealedAt }
      if sha256 (canonicalJson (.obj manifest.unsignedFields)) ≠ manifestSha256 then
        .error .manifestHashInvalid
      else .ok manifest
  | _, _, _, _, _ => .error .manifestInvalid

/-! ## Anchors of removed segments -/

structure EventHistoryRetentionAnchor where
  retentionSequence : Nat
  removedFirstSequence : Nat
  removedLastSequence : Nat
  removedEventCount : Nat
  removedSegmentCount : Nat
  removedFirstRecordSha256 : String
  removedLastRecordSha256 : String
  removedSegmentChainHead : String
  nextRetainedSequence : Nat
  nextRetainedPreviousRecordSha256 : String
  previousRetentionRecordSha256 : String
  prunedAt : Timestamp
  retentionRecordSha256 : String
  deriving DecidableEq

def anchorNames : List String :=
  ["schemaVersion", "retentionSequence", "removedFirstSequence", "removedLastSequence",
    "removedEventCount", "removedSegmentCount", "removedFirstRecordSha256", "removedLastRecordSha256",
    "removedSegmentChainHead", "nextRetainedSequence", "nextRetainedPreviousRecordSha256",
    "previousRetentionRecordSha256", "retentionRecordSha256", "prunedAt"]

/-- The fields that the hash of an anchor is taken of. -/
def EventHistoryRetentionAnchor.unsignedFields (anchor : EventHistoryRetentionAnchor) : Fields :=
  [("schemaVersion", .num 1), ("retentionSequence", .num anchor.retentionSequence),
    ("removedFirstSequence", .num anchor.removedFirstSequence),
    ("removedLastSequence", .num anchor.removedLastSequence),
    ("removedEventCount", .num anchor.removedEventCount),
    ("removedSegmentCount", .num anchor.removedSegmentCount),
    ("removedFirstRecordSha256", .str anchor.removedFirstRecordSha256),
    ("removedLastRecordSha256", .str anchor.removedLastRecordSha256),
    ("removedSegmentChainHead", .str anchor.removedSegmentChainHead),
    ("nextRetainedSequence", .num anchor.nextRetainedSequence),
    ("nextRetainedPreviousRecordSha256", .str anchor.nextRetainedPreviousRecordSha256),
    ("previousRetentionRecordSha256", .str anchor.previousRetentionRecordSha256),
    ("prunedAt", .str anchor.prunedAt.text)]

def EventHistoryRetentionAnchor.fields (anchor : EventHistoryRetentionAnchor) : Fields :=
  anchor.unsignedFields ++ [("retentionRecordSha256", .str anchor.retentionRecordSha256)]

def parseRetentionAnchor (input : JsValue) : Except HistoryError EventHistoryRetentionAnchor := do
  let record ← requireExactRecord input anchorNames
  match positiveInteger? (field record "retentionSequence"),
    positiveInteger? (field record "removedFirstSequence"),
    positiveInteger? (field record "removedLastSequence"),
    positiveInteger? (field record "removedEventCount"),
    positiveInteger? (field record "removedSegmentCount"),
    positiveInteger? (field record "nextRetainedSequence"), (field record "prunedAt").timestamp? with
  | some retentionSequence, some removedFirstSequence, some removedLastSequence,
    some removedEventCount, some removedSegmentCount, some nextRetainedSequence, some prunedAt =>
    if field record "schemaVersion" ≠ .num 1 || removedLastSequence < removedFirstSequence ||
        nextRetainedSequence ≠ removedLastSequence + 1 then
      .error .retentionAnchorInvalid
    else do
      let removedFirstRecordSha256 ← assertHash (field record "removedFirstRecordSha256")
      let removedLastRecordSha256 ← assertHash (field record "removedLastRecordSha256")
      let removedSegmentChainHead ← assertHash (field record "removedSegmentChainHead")
      let nextRetainedPreviousRecordSha256 ←
        assertHash (field record "nextRetainedPreviousRecordSha256")
      let previousRetentionRecordSha256 ← assertHash (field record "previousRetentionRecordSha256")
      let retentionRecordSha256 ← assertHash (field record "retentionRecordSha256")
      let anchor : EventHistoryRetentionAnchor :=
        { retentionSequence, removedFirstSequence, removedLastSequence, removedEventCount,
          removedSegmentCount, removedFirstRecordSha256, removedLastRecordSha256,
          removedSegmentChainHead, nextRetainedSequence, nextRetainedPreviousRecordSha256,
          previousRetentionRecordSha256, prunedAt, retentionRecordSha256 }
      if sha256 (canonicalJson (.obj anchor.unsignedFields)) ≠ retentionRecordSha256 then
        .error .retentionAnchorHashInvalid
      else .ok anchor
  | _, _, _, _, _, _, _ => .error .retentionAnchorInvalid

end Checks

/-! ## Metadata of exports -/

structure EventHistoryExportMetadata where
  exportId : String
  fromSequence : Nat
  throughSequence : Nat
  eventCount : Nat
  byteCount : Nat
  contentSha256 : String
  createdAt : Timestamp
  retentionAnchorSha256 : String
  deriving DecidableEq

def EventHistoryExportMetadata.fields (metadata : EventHistoryExportMetadata) : Fields :=
  [("schemaVersion", .num 1), ("exportId", .str metadata.exportId),
    ("fromSequence", .num metadata.fromSequence), ("throughSequence", .num metadata.throughSequence),
    ("eventCount", .num metadata.eventCount), ("byteCount", .num metadata.byteCount),
    ("contentSha256", .str metadata.contentSha256), ("createdAt", .str metadata.createdAt.text),
    ("retentionAnchorSha256", .str metadata.retentionAnchorSha256)]

/-- The text of a value that is a hash. -/
def hash? : JsValue → Option String
  | .str text => if isSha256 text then some text else none
  | _ => none

def parseExportMetadata (input : JsValue) : Except HistoryError EventHistoryExportMetadata :=
  match input with
  | .obj record =>
    match hash? (field record "exportId"), positiveInteger? (field record "fromSequence"),
      positiveInteger? (field record "throughSequence"), nonNegativeInteger? (field record "eventCount"),
      nonNegativeInteger? (field record "byteCount"), hash? (field record "contentSha256"),
      (field record "createdAt").timestamp?, hash? (field record "retentionAnchorSha256") with
    | some exportId, some fromSequence, some throughSequence, some eventCount, some byteCount,
      some contentSha256, some createdAt, some retentionAnchorSha256 =>
      if record.length ≠ 9 || field record "schemaVersion" ≠ .num 1 ||
          throughSequence < fromSequence then
        .error .exportCorrupt
      else
        .ok { exportId, fromSequence, throughSequence, eventCount, byteCount, contentSha256, createdAt,
              retentionAnchorSha256 }
    | _, _, _, _, _, _, _, _ => .error .exportCorrupt
  | _ => .error .exportCorrupt

structure EventHistoryExportRequest where
  fromSequence : Nat
  throughSequence : Nat
  deriving DecidableEq

def parseExportRequest (input : JsValue) : Except HistoryError EventHistoryExportRequest :=
  match input with
  | .obj record =>
    match positiveInteger? (field record "fromSequence"),
      positiveInteger? (field record "throughSequence") with
    | some fromSequence, some throughSequence =>
      if record.length ≠ 2 then .error .exportCorrupt else .ok { fromSequence, throughSequence }
    | _, _ => .error .exportCorrupt
  | _ => .error .exportCorrupt

/-! ## The retention policy -/

/-- A policy that the check has admitted. -/
structure EventHistoryRetentionPolicy where
  automaticPruneEnabled : Bool
  minSealedSegments : Nat
  maxSealedSegments : Nat
  maxSealedSegmentAgeDays : Nat
  minExports : Nat
  maxExports : Nat
  maxExportAgeDays : Nat
  segments_pos : 1 ≤ minSealedSegments
  segments_le : minSealedSegments ≤ maxSealedSegments
  exports_le : minExports ≤ maxExports
  deriving DecidableEq

/-- `boundedInteger`. -/
def boundedInteger (value : JsValue) (min max : Nat) : Except HistoryError { n : Nat // min ≤ n } :=
  match nonNegativeInteger? value with
  | some n => if h : min ≤ n ∧ n ≤ max then .ok ⟨n, h.1⟩ else .error .retentionInvalid
  | none => .error .retentionInvalid

def createRetentionPolicy (input : JsValue) : Except HistoryError EventHistoryRetentionPolicy := do
  let record ← requireExactRecord input ["schemaVersion", "automaticPruneEnabled", "segments", "exports"]
  match field record "segments", field record "exports" with
  | .obj segments, .obj «exports» =>
    if !hasExactFields segments ["minSealedSegments", "maxSealedSegments", "maxSealedSegmentAgeDays"] ||
        !hasExactFields «exports» ["minExports", "maxExports", "maxExportAgeDays"] then
      .error .fieldsInvalid
    else
      match field record "schemaVersion", field record "automaticPruneEnabled" with
      | .num 1, .bool automaticPruneEnabled => do
        let minSealedSegments ← boundedInteger (field segments "minSealedSegments") 1 1000
        let maxSealedSegments ← boundedInteger (field segments "maxSealedSegments") 1 10000
        let maxSealedSegmentAgeDays ← boundedInteger (field segments "maxSealedSegmentAgeDays") 1 3650
        let minExports ← boundedInteger (field «exports» "minExports") 0 100
        let maxExports ← boundedInteger (field «exports» "maxExports") 1 1000
        let maxExportAgeDays ← boundedInteger (field «exports» "maxExportAgeDays") 1 3650
        if hle : minSealedSegments.val ≤ maxSealedSegments ∧ minExports.val ≤ maxExports then
          .ok { automaticPruneEnabled, minSealedSegments, maxSealedSegments, maxSealedSegmentAgeDays,
                minExports, maxExports, maxExportAgeDays, segments_pos := minSealedSegments.property,
                segments_le := hle.1, exports_le := hle.2 }
        else .error .retentionInvalid
      | _, _ => .error .retentionInvalid
  | _, _ => .error .recordInvalid

/-- `DEFAULT_EVENT_HISTORY_RETENTION_POLICY`. -/
def defaultRetentionPolicy : EventHistoryRetentionPolicy where
  automaticPruneEnabled := false
  minSealedSegments := 1
  maxSealedSegments := 100
  maxSealedSegmentAgeDays := 365
  minExports := 0
  maxExports := 32
  maxExportAgeDays := 90
  segments_pos := by decide
  segments_le := by decide
  exports_le := by decide

/-! ## What is written of a record -/

theorem isUnits_timestamp (t : Timestamp) : IsUnits t.text := by
  have hpad : ∀ w n, ∀ c ∈ pad w n, c.toNat < 0xD800 := by
    intro w n c hc
    have hdigit := Json.isDigit_of_mem_pad hc
    rw [Json.isDigit, Bool.and_eq_true, decide_eq_true_eq, decide_eq_true_eq] at hdigit
    have hle : c.toNat ≤ '9'.toNat := hdigit.2
    have hnine : '9'.toNat = 57 := rfl
    omega
  have hyear : ∀ y, ∀ c ∈ yearText y, c.toNat < 0xD800 := by
    intro y
    rw [yearText]
    split_ifs
    · rw [List.forall_mem_cons]
      exact ⟨by decide, hpad 6 _⟩
    · exact hpad 4 _
    · rw [List.forall_mem_cons]
      exact ⟨by decide, hpad 6 _⟩
  refine isUnits_of_lt fun c hc => ?_
  rw [Timestamp.text, String.toList_ofList] at hc
  revert c hc
  simp only [isoText, restText, List.forall_mem_append, List.forall_mem_cons, List.not_mem_nil,
    false_implies, implies_true, and_true]
  exact ⟨hyear _, by decide, hpad 2 _, by decide, hpad 2 _, by decide, hpad 2 _, by decide, hpad 2 _,
    by decide, hpad 2 _, by decide, hpad 3 _, by decide⟩

theorem isFlat_nat {n : Nat} (h : n < 2 ^ 53) : IsFlat (.num n) := by
  refine ⟨Nat.cast_nonneg _, Rat.den_natCast _, ?_⟩
  exact_mod_cast h

theorem isWritable_nat {n : Nat} (h : n < 2 ^ 53) : IsWritable (.num n) := isFlat_nat h

theorem positiveInteger?_nat {n : Nat} (h : 1 ≤ n ∧ n < 2 ^ 53) : positiveInteger? (.num n) = some n :=
  positiveInteger?_eq_some.mpr ⟨rfl, h⟩

theorem nonNegativeInteger?_nat {n : Nat} (h : n < 2 ^ 53) : nonNegativeInteger? (.num n) = some n :=
  nonNegativeInteger?_eq_some.mpr ⟨rfl, h⟩

theorem assertHash_str {text : String} (h : isSha256 text = true) : assertHash (.str text) = .ok text :=
  assertHash_eq_ok.mpr ⟨rfl, h⟩

/-- **A flat record is read** with the fields it was written with, whatever blanks stand behind it. -/
theorem decode_canonicalJson {fields : Fields} (hwritable : IsWritable (.obj fields))
    (hflat : ∀ f ∈ fields, IsFlat f.2) {blanks : Text} (hblanks : Ws blanks []) :
    ∃ record, decode (canonicalJson (.obj fields) ++ blanks) = .ok (.obj record) ∧
      SameFields record fields ∧ record.length = fields.length := by
  have hsorted := isWritable_sortJson hwritable
  have htext := isJsonText_write (literalsValid_treeOf (sortJson (.obj fields))) hblanks
  have hread : parseStrictJson (canonicalJson (.obj fields) ++ blanks) =
      .ok (treeOf (sortJson (.obj fields))).value :=
    Config.parse_eq_ok.mpr ⟨_, htext, fun _ => admitted_treeOf hsorted, rfl⟩
  have hnodup := hwritable.1
  refine ⟨sortFields (sortValues fields), ?_, ?_, ?_⟩
  · rw [decode, hread]
    show Except.ok (jsValue _) = _
    rw [jsValue_value_treeOf hsorted, sortJson]
  · refine sameFields_of_sameJson ?_ hnodup hflat ?_
    · exact (names_sortFields fields).nodup_iff.mpr hnodup
    · have hsame := sortJson_sortJson hwritable
      rwa [sortJson] at hsame
  · rw [(perm_sortFields _).length_eq, sortValues_eq, List.length_map]

section Anchors

variable {sha256 : Text → String}

/-- An anchor that passes its check. -/
structure EventHistoryRetentionAnchor.Valid (sha256 : Text → String)
    (anchor : EventHistoryRetentionAnchor) : Prop where
  retentionSequence : 1 ≤ anchor.retentionSequence ∧ anchor.retentionSequence < 2 ^ 53
  removedFirstSequence : 1 ≤ anchor.removedFirstSequence ∧ anchor.removedFirstSequence < 2 ^ 53
  removedLastSequence : 1 ≤ anchor.removedLastSequence ∧ anchor.removedLastSequence < 2 ^ 53
  removedEventCount : 1 ≤ anchor.removedEventCount ∧ anchor.removedEventCount < 2 ^ 53
  removedSegmentCount : 1 ≤ anchor.removedSegmentCount ∧ anchor.removedSegmentCount < 2 ^ 53
  nextRetainedSequence : 1 ≤ anchor.nextRetainedSequence ∧ anchor.nextRetainedSequence < 2 ^ 53
  first_le_last : anchor.removedFirstSequence ≤ anchor.removedLastSequence
  next : anchor.nextRetainedSequence = anchor.removedLastSequence + 1
  removedFirstRecordSha256 : isSha256 anchor.removedFirstRecordSha256 = true
  removedLastRecordSha256 : isSha256 anchor.removedLastRecordSha256 = true
  removedSegmentChainHead : isSha256 anchor.removedSegmentChainHead = true
  nextRetainedPreviousRecordSha256 : isSha256 anchor.nextRetainedPreviousRecordSha256 = true
  previousRetentionRecordSha256 : isSha256 anchor.previousRetentionRecordSha256 = true
  retentionRecordSha256 : isSha256 anchor.retentionRecordSha256 = true
  hash : sha256 (canonicalJson (.obj anchor.unsignedFields)) = anchor.retentionRecordSha256

variable {anchor : EventHistoryRetentionAnchor}

theorem isUnits_anchorNames : ∀ name ∈ anchorNames, IsUnits name := isUnits_of_all (by decide)

theorem EventHistoryRetentionAnchor.Valid.isWritable_fields (h : anchor.Valid sha256) :
    IsWritable (.obj anchor.fields) := by
  refine ⟨by simp [fields, unsignedFields], fieldsAreWritable_iff.mpr fun f hf =>
    ⟨isUnits_anchorNames f.1 ?_, ?_⟩⟩
  · revert f hf
    simp [fields, unsignedFields, anchorNames]
  · revert f hf
    simp only [fields, unsignedFields, List.cons_append, List.nil_append, List.forall_mem_cons,
      List.not_mem_nil, false_implies, implies_true, and_true]
    exact ⟨isWritable_nat (by decide), isWritable_nat h.retentionSequence.2,
      isWritable_nat h.removedFirstSequence.2, isWritable_nat h.removedLastSequence.2,
      isWritable_nat h.removedEventCount.2, isWritable_nat h.removedSegmentCount.2,
      isUnits_of_isSha256 h.removedFirstRecordSha256, isUnits_of_isSha256 h.removedLastRecordSha256,
      isUnits_of_isSha256 h.removedSegmentChainHead, isWritable_nat h.nextRetainedSequence.2,
      isUnits_of_isSha256 h.nextRetainedPreviousRecordSha256,
      isUnits_of_isSha256 h.previousRetentionRecordSha256, isUnits_timestamp _,
      isUnits_of_isSha256 h.retentionRecordSha256⟩

theorem EventHistoryRetentionAnchor.Valid.isFlat_fields (h : anchor.Valid sha256) :
    ∀ f ∈ anchor.fields, IsFlat f.2 := by
  simp only [fields, unsignedFields, List.cons_append, List.nil_append, List.forall_mem_cons,
    List.not_mem_nil, false_implies, implies_true, and_true]
  exact ⟨isFlat_nat (by decide), isFlat_nat h.retentionSequence.2, isFlat_nat h.removedFirstSequence.2,
    isFlat_nat h.removedLastSequence.2, isFlat_nat h.removedEventCount.2,
    isFlat_nat h.removedSegmentCount.2, trivial, trivial, trivial, isFlat_nat h.nextRetainedSequence.2,
    trivial, trivial, trivial, trivial⟩

/-- A record with the fields of an anchor is that anchor. -/
theorem parseRetentionAnchor_of_sameFields (h : anchor.Valid sha256) {record : Fields}
    (hsame : SameFields record anchor.fields) (hlength : record.length = anchor.fields.length) :
    parseRetentionAnchor sha256 (.obj record) = .ok anchor := by
  have hexact : hasExactFields record anchorNames = true := by
    rw [hsame.hasExactFields hlength]
    simp [hasExactFields, hasFieldOutside, EventHistoryRetentionAnchor.fields,
      EventHistoryRetentionAnchor.unsignedFields, anchorNames]
  have hrequired : requireExactRecord (.obj record) anchorNames = .ok record :=
    requireExactRecord_eq_ok.mpr ⟨rfl, hexact⟩
  have hread : ∀ name value, anchor.fields.lookup name = some value → field record name = value := by
    intro name value hlookup
    rw [hsame.field, field_of_lookup hlookup]
  simp only [parseRetentionAnchor, hrequired, bind, Except.bind, hread "schemaVersion" _ rfl,
    hread "retentionSequence" _ rfl, hread "removedFirstSequence" _ rfl,
    hread "removedLastSequence" _ rfl, hread "removedEventCount" _ rfl,
    hread "removedSegmentCount" _ rfl, hread "removedFirstRecordSha256" _ rfl,
    hread "removedLastRecordSha256" _ rfl, hread "removedSegmentChainHead" _ rfl,
    hread "nextRetainedSequence" _ rfl, hread "nextRetainedPreviousRecordSha256" _ rfl,
    hread "previousRetentionRecordSha256" _ rfl, hread "prunedAt" _ rfl,
    hread "retentionRecordSha256" _ rfl, positiveInteger?_nat h.retentionSequence,
    positiveInteger?_nat h.removedFirstSequence, positiveInteger?_nat h.removedLastSequence,
    positiveInteger?_nat h.removedEventCount, positiveInteger?_nat h.removedSegmentCount,
    positiveInteger?_nat h.nextRetainedSequence, JsValue.timestamp?_text,
    assertHash_str h.removedFirstRecordSha256, assertHash_str h.removedLastRecordSha256,
    assertHash_str h.removedSegmentChainHead, assertHash_str h.nextRetainedPreviousRecordSha256,
    assertHash_str h.previousRetentionRecordSha256, assertHash_str h.retentionRecordSha256]
  rw [if_neg, if_neg]
  · exact not_not.mpr h.hash
  · simp [h.next, h.first_le_last]

/-- **An anchor is read** as it was written. -/
theorem parseRetentionAnchor_written (h : anchor.Valid sha256) :
    decode (canonicalJson (.obj anchor.fields)) >>= parseRetentionAnchor sha256 = .ok anchor := by
  obtain ⟨record, hrecord, hsame, hlength⟩ :=
    decode_canonicalJson h.isWritable_fields h.isFlat_fields .nil
  rw [List.append_nil] at hrecord
  rw [hrecord]
  exact parseRetentionAnchor_of_sameFields h hsame hlength

theorem valid_of_parseRetentionAnchor {input : JsValue}
    (h : parseRetentionAnchor sha256 input = .ok anchor) : anchor.Valid sha256 := by
  simp only [parseRetentionAnchor, bind_ok] at h
  obtain ⟨record, hrecord, h⟩ := h
  split at h
  · rename_i hretention hfirst hlast hcount hsegments hnext hpruned
    split_ifs at h with hconditions
    simp only [bind_ok] at h
    obtain ⟨firstHash, hfirstHash, lastHash, hlastHash, head, hhead, nextHash, hnextHash, previous,
      hprevious, own, hown, h⟩ := h
    split_ifs at h with hhash
    obtain rfl := Except.ok.inj h
    simp only [Bool.or_eq_true, decide_eq_true_eq, not_or, not_not] at hconditions
    exact {
      retentionSequence := (positiveInteger?_eq_some.mp hretention).2
      removedFirstSequence := (positiveInteger?_eq_some.mp hfirst).2
      removedLastSequence := (positiveInteger?_eq_some.mp hlast).2
      removedEventCount := (positiveInteger?_eq_some.mp hcount).2
      removedSegmentCount := (positiveInteger?_eq_some.mp hsegments).2
      nextRetainedSequence := (positiveInteger?_eq_some.mp hnext).2
      first_le_last := Nat.not_lt.mp hconditions.1.2
      next := hconditions.2
      removedFirstRecordSha256 := (assertHash_eq_ok.mp hfirstHash).2
      removedLastRecordSha256 := (assertHash_eq_ok.mp hlastHash).2
      removedSegmentChainHead := (assertHash_eq_ok.mp hhead).2
      nextRetainedPreviousRecordSha256 := (assertHash_eq_ok.mp hnextHash).2
      previousRetentionRecordSha256 := (assertHash_eq_ok.mp hprevious).2
      retentionRecordSha256 := (assertHash_eq_ok.mp hown).2
      hash := not_not.mp hhash }
  · cases h

/-- What the check of a manifest has found. -/
structure EventHistorySegmentManifest.Valid (manifest : EventHistorySegmentManifest) : Prop where
  firstSequence : 1 ≤ manifest.firstSequence ∧ manifest.firstSequence < 2 ^ 53
  lastSequence : 1 ≤ manifest.lastSequence ∧ manifest.lastSequence < 2 ^ 53
  first_le_last : manifest.firstSequence ≤ manifest.lastSequence
  eventCount : manifest.eventCount = manifest.lastSequence - manifest.firstSequence + 1
  firstRecordSha256 : isSha256 manifest.firstRecordSha256 = true
  lastRecordSha256 : isSha256 manifest.lastRecordSha256 = true
  manifestSha256 : isSha256 manifest.manifestSha256 = true

theorem valid_of_parseSegmentManifest {input : JsValue} {manifest : EventHistorySegmentManifest}
    (h : parseSegmentManifest sha256 input = .ok manifest) : manifest.Valid := by
  simp only [parseSegmentManifest, bind_ok] at h
  obtain ⟨record, hrecord, h⟩ := h
  split at h
  · rename_i hfirst hlast hcount hbytes hsealed
    split_ifs at h with hconditions
    simp only [bind_ok] at h
    obtain ⟨firstHash, hfirstHash, lastHash, hlastHash, previous, hprevious, content, hcontent, own,
      hown, h⟩ := h
    split_ifs at h with hhash
    obtain rfl := Except.ok.inj h
    simp only [Bool.or_eq_true, decide_eq_true_eq, not_or, not_not] at hconditions
    exact {
      firstSequence := (positiveInteger?_eq_some.mp hfirst).2
      lastSequence := (positiveInteger?_eq_some.mp hlast).2
      first_le_last := Nat.not_lt.mp hconditions.1.2
      eventCount := hconditions.2
      firstRecordSha256 := (assertHash_eq_ok.mp hfirstHash).2
      lastRecordSha256 := (assertHash_eq_ok.mp hlastHash).2
      manifestSha256 := (assertHash_eq_ok.mp hown).2 }
  · cases h

end Anchors

/-! ## Metadata that is written -/

section Metadata

variable {metadata : EventHistoryExportMetadata}

/-- Metadata that passes its check. -/
structure EventHistoryExportMetadata.Valid (metadata : EventHistoryExportMetadata) : Prop where
  exportId : isSha256 metadata.exportId = true
  fromSequence : 1 ≤ metadata.fromSequence ∧ metadata.fromSequence < 2 ^ 53
  throughSequence : 1 ≤ metadata.throughSequence ∧ metadata.throughSequence < 2 ^ 53
  from_le_through : metadata.fromSequence ≤ metadata.throughSequence
  eventCount : metadata.eventCount < 2 ^ 53
  byteCount : metadata.byteCount < 2 ^ 53
  contentSha256 : isSha256 metadata.contentSha256 = true
  retentionAnchorSha256 : isSha256 metadata.retentionAnchorSha256 = true

theorem hash?_str {text : String} (h : isSha256 text = true) : hash? (.str text) = some text := by
  rw [hash?, if_pos h]

theorem isUnits_metadataNames : ∀ name ∈ ["schemaVersion", "exportId", "fromSequence", "throughSequence",
    "eventCount", "byteCount", "contentSha256", "createdAt", "retentionAnchorSha256"], IsUnits name :=
  isUnits_of_all (by decide)

theorem EventHistoryExportMetadata.Valid.isWritable_fields (h : metadata.Valid) :
    IsWritable (.obj metadata.fields) := by
  refine ⟨by simp [fields], fieldsAreWritable_iff.mpr fun f hf => ⟨isUnits_metadataNames f.1 ?_, ?_⟩⟩
  · revert f hf
    simp [fields]
  · revert f hf
    simp only [fields, List.forall_mem_cons, List.not_mem_nil, false_implies, implies_true, and_true]
    exact ⟨isWritable_nat (by decide), isUnits_of_isSha256 h.exportId, isWritable_nat h.fromSequence.2,
      isWritable_nat h.throughSequence.2, isWritable_nat h.eventCount, isWritable_nat h.byteCount,
      isUnits_of_isSha256 h.contentSha256, isUnits_timestamp _,
      isUnits_of_isSha256 h.retentionAnchorSha256⟩

theorem EventHistoryExportMetadata.Valid.isFlat_fields (h : metadata.Valid) :
    ∀ f ∈ metadata.fields, IsFlat f.2 := by
  simp only [fields, List.forall_mem_cons, List.not_mem_nil, false_implies, implies_true, and_true]
  exact ⟨isFlat_nat (by decide), trivial, isFlat_nat h.fromSequence.2, isFlat_nat h.throughSequence.2,
    isFlat_nat h.eventCount, isFlat_nat h.byteCount, trivial, trivial, trivial⟩

/-- **The metadata of an export is read** as it was written. -/
theorem parseExportMetadata_written (h : metadata.Valid) :
    decode (canonicalJson (.obj metadata.fields) ++ [0x0A]) >>= parseExportMetadata = .ok metadata := by
  have hblanks : Ws [0x0A] [] := .cons (by decide) .nil
  obtain ⟨record, hrecord, hsame, hlength⟩ :=
    decode_canonicalJson h.isWritable_fields h.isFlat_fields hblanks
  have hread : ∀ name value, metadata.fields.lookup name = some value → field record name = value := by
    intro name value hlookup
    rw [hsame.field, field_of_lookup hlookup]
  have hnine : record.length = 9 := hlength
  rw [hrecord]
  show parseExportMetadata (.obj record) = _
  simp only [parseExportMetadata, hread "schemaVersion" _ rfl, hread "exportId" _ rfl,
    hread "fromSequence" _ rfl, hread "throughSequence" _ rfl, hread "eventCount" _ rfl,
    hread "byteCount" _ rfl, hread "contentSha256" _ rfl, hread "createdAt" _ rfl,
    hread "retentionAnchorSha256" _ rfl, hash?_str h.exportId, hash?_str h.contentSha256,
    hash?_str h.retentionAnchorSha256, positiveInteger?_nat h.fromSequence,
    positiveInteger?_nat h.throughSequence, nonNegativeInteger?_nat h.eventCount,
    nonNegativeInteger?_nat h.byteCount, JsValue.timestamp?_text, hnine]
  rw [if_neg]
  simp [h.from_le_through]

end Metadata

end AtlasManager.EventHistory
