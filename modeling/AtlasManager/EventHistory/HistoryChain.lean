import AtlasManager.EventHistory.HistoryRotation
import AtlasManager.Lib.HashChain

/-!
# AtlasManager.EventHistory.HistoryChain

The hashes of the records of a history, from the first record to the last.

* `readSegments_chained` -- the records of the sealed segments are chained;
* `retained_of_reconstruct` -- and so is the whole history that has been read;
* `history_commits` -- the hash of the last record, and the first and the last number, commit to all
  records between them.
-/

namespace AtlasManager.EventHistory

open AtlasManager.Lib AtlasManager.Lib.Rfc8259 AtlasManager.Backup

variable {sha256 : Text → String} {limits : HistoryLimits} {root : Root} {chain : Chain}
  {state : Reconstruction}

/-! ## Chains of records -/

/-- Every record names the hash of the one before it, and the first one a given hash. -/
def RecordChain (start : String) (records : List EventHistoryRecord) : Prop :=
  Chained EventHistoryRecord.previousRecordSha256 EventHistoryRecord.recordSha256 start records

/-- The hash that the next record has to name. -/
def recordHead (start : String) (records : List EventHistoryRecord) : String :=
  chainHead EventHistoryRecord.recordSha256 start records

theorem recordChain_nil (start : String) : RecordChain start [] := trivial

theorem recordHead_nil (start : String) : recordHead start [] = start := rfl

theorem recordHead_append (start : String) (front back : List EventHistoryRecord) :
    recordHead start (front ++ back) = recordHead (recordHead start front) back :=
  chainHead_append _ start front back

theorem recordChain_append {start : String} {front back : List EventHistoryRecord} :
    RecordChain start (front ++ back) ↔
      RecordChain start front ∧ RecordChain (recordHead start front) back :=
  chained_append _ _

theorem recordHead_of_getLast? {start : String} {records : List EventHistoryRecord}
    {record : EventHistoryRecord} (h : records.getLast? = some record) :
    recordHead start records = record.recordSha256 := by
  rw [recordHead, chainHead, h]

/-! ## Texts that have been read -/

theorem parseRecordLines_chained {previous : String} {n : Nat} {texts : List Text}
    {records : List EventHistoryRecord} (h : parseRecordLines sha256 previous n texts = .ok records) :
    RecordChain previous records := by
  induction texts generalizing previous n records with
  | nil =>
      rw [parseRecordLines, Except.ok.injEq] at h
      rw [← h]
      exact recordChain_nil previous
  | cons text rest ih =>
      rw [parseRecordLines] at h
      split_ifs at h with hlong
      cases hparsed : parseEventHistoryRecordLine sha256 (text ++ [0x0A]) with
      | error code => simp [hparsed] at h
      | ok record =>
          simp only [hparsed] at h
          split_ifs at h with hbroken
          obtain ⟨behind, hbehind, hrecords⟩ := bind_ok.mp h
          obtain rfl := Except.ok.inj hrecords
          rw [not_or, not_not] at hbroken
          exact ⟨hbroken.1, ih hbehind⟩

theorem parseRecords_chained {text : Text} {previous : String} {records : List EventHistoryRecord}
    (h : parseRecords sha256 text previous = .ok records) : RecordChain previous records := by
  simp only [parseRecords] at h
  split_ifs at h with hempty hended
  · rw [← Except.ok.inj h]
    exact recordChain_nil previous
  · exact parseRecordLines_chained h

theorem readSegment_chained {name : SegmentName} {segment : SealedSegment}
    (h : readSegment sha256 root chain name = .ok segment) :
    RecordChain chain.previousRecord segment.records ∧
      (Chain.after segment.manifest).previousRecord = recordHead chain.previousRecord segment.records := by
  have hreads := readSegment_ok h
  refine ⟨?_, ?_⟩
  · rw [readSegment] at h
    split at h
    · obtain ⟨manifest, -, h⟩ := bind_ok.mp h
      obtain ⟨records, hrecords, h⟩ := bind_ok.mp h
      split_ifs at h with hagrees hname
      obtain rfl := Except.ok.inj h
      exact parseRecords_chained hrecords
    · cases h
  · have hlast := List.getLast?_eq_some_getLast hreads.records_ne
    rw [recordHead_of_getLast? hlast]
    exact hreads.lastRecord _ hlast

/-- **The records of sealed segments** are chained, and their manifests name the last hash. -/
theorem readSegments_chained {names : List SegmentName} {segments : List SealedSegment}
    (h : readSegments sha256 root chain names = .ok segments) :
    RecordChain chain.previousRecord (segments.flatMap SealedSegment.records) ∧
      (chain.behind segments).previousRecord =
        recordHead chain.previousRecord (segments.flatMap SealedSegment.records) := by
  induction names generalizing chain segments with
  | nil =>
      rw [readSegments, Except.ok.injEq] at h
      rw [← h]
      exact ⟨recordChain_nil _, rfl⟩
  | cons name names ih =>
      rw [readSegments] at h
      obtain ⟨segment, hsegment, h⟩ := bind_ok.mp h
      obtain ⟨rest, hrest, h⟩ := bind_ok.mp h
      obtain rfl := Except.ok.inj h
      obtain ⟨hchained, hhead⟩ := readSegment_chained hsegment
      obtain ⟨hchained', hhead'⟩ := ih hrest
      rw [hhead] at hchained' hhead'
      rw [List.flatMap_cons, behind_cons, hhead', recordHead_append]
      exact ⟨recordChain_append.mpr ⟨hchained, hchained'⟩, rfl⟩

/-! ## The whole history -/

/-- What is known of a history that has been read. -/
structure Retained (sha256 : Text → String) (state : Reconstruction) : Prop where
  linked : Linked sha256 state.start.previousRecord state.start.expectedSequence state.records
  chained : RecordChain state.start.previousRecord state.records
  earliest : state.earliestRetainedSequence = state.start.expectedSequence
  latest : state.latestSequence + 1 = state.start.expectedSequence + state.records.length
  lastRecord : state.lastRecordSha256 = recordHead state.start.previousRecord state.records

theorem Reconstructs.retained (h : Reconstructs sha256 limits root state) : Retained sha256 state := by
  obtain ⟨hsealed, hhead⟩ := readSegments_chained h.segments
  have hactive := parseRecords_chained h.active
  rw [Reconstruction.chain, hhead] at hactive
  refine ⟨h.linked, recordChain_append.mpr ⟨hsealed, hactive⟩, h.earliest_eq, h.latest_eq, ?_⟩
  rw [Reconstruction.lastRecordSha256]
  cases hrecord : state.records.getLast? with
  | some record => rw [recordHead_of_getLast? hrecord]
  | none =>
      have hempty := List.getLast?_eq_none_iff.mp hrecord
      rw [h.chain_of_records_nil hempty, hempty, recordHead_nil]

theorem retained_empty : Retained sha256 .empty where
  linked := .nil
  chained := trivial
  earliest := rfl
  latest := rfl
  lastRecord := rfl

/-- **A history that has been read** is linked and chained, whether or not there are files. -/
theorem retained_of_reconstruct {disk : Option Root} (h : reconstruct sha256 limits disk = .ok state) :
    Retained sha256 state := by
  cases disk with
  | none =>
      rw [reconstruct, Except.ok.injEq] at h
      rw [← h]
      exact retained_empty
  | some root => exact (reconstruct_eq_ok.mp h).retained

/-- Valid records whose hashes are of one text are the same. -/
theorem EventHistoryRecord.Valid.same_of_serializeForHash {a b : EventHistoryRecord}
    (ha : a.Valid sha256) (hb : b.Valid sha256)
    (h : serializeEventHistoryRecordForHash a = serializeEventHistoryRecordForHash b) : a.Same b := by
  obtain ⟨hsequence, hevent, hprevious⟩ := ha.eq_of_serializeForHash hb h
  refine EventHistoryRecord.same_of_unsigned hsequence hevent hprevious ?_
  rw [← ha.hash, ← hb.hash, h]

/-- **The hash of the last record** commits to the history: of two directories that are read, with the
same last hash, the same first and the same last number, the records are the same one by one, up to
the order of the fields in their details, or there are two of them whose hashed texts differ and have
one hash. -/
theorem history_commits {limits' : HistoryLimits} {disk disk' : Option Root} {state' : Reconstruction}
    (h : reconstruct sha256 limits disk = .ok state)
    (h' : reconstruct sha256 limits' disk' = .ok state')
    (hlast : state.lastRecordSha256 = state'.lastRecordSha256)
    (hearliest : state.earliestRetainedSequence = state'.earliestRetainedSequence)
    (hlatest : state.latestSequence = state'.latestSequence) :
    List.Forall₂ EventHistoryRecord.Same state.records state'.records ∨
      ∃ record ∈ state.records, ∃ other ∈ state'.records,
        serializeEventHistoryRecordForHash record ≠ serializeEventHistoryRecordForHash other ∧
        sha256 (serializeEventHistoryRecordForHash record) =
          sha256 (serializeEventHistoryRecordForHash other) := by
  have hretained := retained_of_reconstruct h
  have hretained' := retained_of_reconstruct h'
  have hlength : state.records.length = state'.records.length := by
    have hcount := hretained.latest
    have hcount' := hretained'.latest
    rw [← hretained.earliest, hlatest, hearliest] at hcount
    rw [← hretained'.earliest] at hcount'
    omega
  rw [hretained.lastRecord, hretained'.lastRecord] at hlast
  have hvalid := hretained.linked.valid
  have hvalid' := hretained'.linked.valid
  have hcommit := chained_commit (fun record hrecord => (hvalid record hrecord).hash)
    (fun record hrecord => (hvalid' record hrecord).hash)
    (fun record hrecord other hother htext =>
      ((hvalid record hrecord).eq_of_serializeForHash (hvalid' other hother) htext).2.2)
    hretained.chained hretained'.chained hlength hlast
  cases hcommit with
  | inr hcollision => exact .inr hcollision
  | inl hsame =>
      refine .inl (List.forall₂_iff_get.mpr ⟨hlength, fun i hi hi' => ?_⟩)
      have htext := (List.forall₂_iff_get.mp hsame.2).2 i hi hi'
      exact (hvalid _ (List.get_mem _ _)).same_of_serializeForHash (hvalid' _ (List.get_mem _ _)) htext

/-- A record in the active segment, and the directory after its rotation: the hash of the last record
is the same, and it commits to the record in both. -/
theorem history_commits_wakeAlarmRoot :
    ∃ state root' state', reconstruct textDigest defaultLimits (some wakeAlarmRoot) = .ok state ∧
      rotateOne textDigest defaultLimits exportInstant (some wakeAlarmRoot) =
        (.ok .rotated, some root') ∧
      reconstruct textDigest defaultLimits (some root') = .ok state' ∧
      state.sealed = [] ∧ state'.activeRecords = [] ∧
      (List.Forall₂ EventHistoryRecord.Same state.records state'.records ∨
        ∃ record ∈ state.records, ∃ other ∈ state'.records,
          serializeEventHistoryRecordForHash record ≠ serializeEventHistoryRecordForHash other ∧
          textDigest (serializeEventHistoryRecordForHash record) =
            textDigest (serializeEventHistoryRecordForHash other)) := by
  obtain ⟨read, -, -, hreads⟩ := reads_wakeAlarmRoot
  obtain ⟨name, manifest, hrotate, hreads'⟩ := rotateOne_rotated isSha256_textDigest hreads
    (by decide) (List.cons_ne_nil read []) exportInstant
  have hread := reconstruct_eq_ok.mpr hreads
  have hread' := reconstruct_eq_ok.mpr hreads'
  exact ⟨_, _, _, hread, hrotate, hread', rfl, rfl, history_commits hread hread' rfl rfl rfl⟩

end AtlasManager.EventHistory
