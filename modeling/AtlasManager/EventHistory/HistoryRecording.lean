import AtlasManager.EventHistory.HistoryChain

/-!
# AtlasManager.EventHistory.HistoryRecording

How an event is appended to the active segment.

* `parseRecords_append` -- a line behind the lines of a text is read behind their records;
* `Reconstructs.append` -- a record that follows the last one is read once its line was appended;
* `appendRecord_spec` -- **an event is appended**, or nothing was written.
-/

namespace AtlasManager.EventHistory

open AtlasManager.Lib AtlasManager.Lib.Rfc8259 AtlasManager.Backup

variable {sha256 : Text → String} {limits : HistoryLimits}

/-! ## Lines behind other lines -/

/-- The number that the next record has to follow, if it is not zero. -/
def lastSequence (n : Nat) (records : List EventHistoryRecord) : Nat :=
  match records.getLast? with
  | some record => record.sequence
  | none => n

theorem lastSequence_cons (n : Nat) (record : EventHistoryRecord) (records : List EventHistoryRecord) :
    lastSequence n (record :: records) = lastSequence record.sequence records := by
  rw [lastSequence, lastSequence, List.getLast?_cons]
  cases records.getLast? <;> rfl

theorem parseRecordLines_append {a b : List Text} {previous : String} {n : Nat}
    {front back : List EventHistoryRecord} (hfront : parseRecordLines sha256 previous n a = .ok front)
    (hback : parseRecordLines sha256 (recordHead previous front) (lastSequence n front) b = .ok back) :
    parseRecordLines sha256 previous n (a ++ b) = .ok (front ++ back) := by
  induction a generalizing previous n front with
  | nil =>
      rw [parseRecordLines, Except.ok.injEq] at hfront
      rw [← hfront] at hback ⊢
      exact hback
  | cons text a ih =>
      rw [parseRecordLines] at hfront
      rw [List.cons_append, parseRecordLines]
      split_ifs at hfront with hlong
      rw [if_neg hlong]
      cases hparsed : parseEventHistoryRecordLine sha256 (text ++ [0x0A]) with
      | error code => simp [hparsed] at hfront
      | ok record =>
          simp only [hparsed] at hfront ⊢
          split_ifs at hfront with hbroken
          obtain ⟨rest, hrest, hrecords⟩ := bind_ok.mp hfront
          obtain rfl := Except.ok.inj hrecords
          rw [recordHead, chainHead_cons, lastSequence_cons] at hback
          rw [if_neg hbroken]
          exact bind_ok.mpr ⟨rest ++ back, ih hrest hback, rfl⟩

/-- **A line is read** behind the lines of a text. -/
theorem parseRecords_append {text line : Text} {previous : String} {front back : List EventHistoryRecord}
    (hfront : parseRecords sha256 text previous = .ok front) (hline : (0x0A : CodeUnit) ∉ line)
    (hreturn : (0x0D : CodeUnit) ∉ line) (hmark : (line ++ [0x0A]).head? ≠ some byteOrderMark)
    (hback : parseRecordLines sha256 (recordHead previous front) (lastSequence 0 front) [line] =
      .ok back) :
    parseRecords sha256 (text ++ (line ++ [0x0A])) previous = .ok (front ++ back) := by
  have hended : (line ++ [(0x0A : CodeUnit)]).splitOn 0x0A = [line, []] := by
    rw [List.splitOn_append_cons_self, List.splitOn_eq_singleton hline]
    rfl
  simp only [parseRecords] at hfront ⊢
  split_ifs at hfront with hempty hwhole
  · rw [Except.ok.injEq] at hfront
    rw [hempty, List.nil_append, decodeUtf8_of_head? hmark, if_neg (by simp), if_neg (by simp [hreturn]),
      hended, ← hfront]
    rw [← hfront] at hback
    exact hback
  · rw [Bool.or_eq_true, decide_eq_true_eq, decide_eq_true_eq, not_or, not_not] at hwhole
    obtain ⟨front', hfront'⟩ := List.getLast?_eq_some_iff.mp hwhole.1
    rw [decodeUtf8_append hempty]
    rw [hfront'] at hwhole hfront ⊢
    have hsplit : ((front' ++ [(0x0A : CodeUnit)]).splitOn 0x0A).dropLast = front'.splitOn 0x0A := by
      rw [List.splitOn_append_cons_self, List.splitOn_nil, List.dropLast_concat]
    have hsplit' : ((front' ++ [(0x0A : CodeUnit)] ++ (line ++ [0x0A])).splitOn 0x0A).dropLast =
        front'.splitOn 0x0A ++ [line] := by
      rw [List.append_assoc, List.singleton_append, List.splitOn_append_cons_self, hended]
      simp
    rw [hsplit] at hfront
    rw [if_neg (by simp), if_neg, hsplit']
    · exact parseRecordLines_append hfront hback
    · have hnone := hwhole.2
      simp only [List.mem_append, not_or] at hnone
      simp [List.getLast?_cons, hnone.1, hreturn]

/-- The line of a record is read as one record. -/
theorem parseRecordLines_serialize {record : EventHistoryRecord} (hvalid : record.Valid sha256)
    (hlength : byteLength (serializeEventHistoryRecord record) ≤ eventHistoryMaxRecordBytes)
    {n : Nat} (hnext : 0 < n → record.sequence = n + 1) :
    ∃ read, parseRecordLines sha256 record.previousRecordSha256 n [canonicalJson (.obj record.fields)] =
        .ok [read] ∧
      read.Same record ∧ read.sequence = record.sequence ∧
      read.previousRecordSha256 = record.previousRecordSha256 := by
  obtain ⟨read, hread, hsame, htext⟩ := parse_serialize hvalid
  obtain ⟨hsequence, -, hprevious⟩ :=
    (valid_of_parseEventHistoryRecordLine hread).eq_of_serializeForHash hvalid htext
  refine ⟨read, ?_, hsame, hsequence, hprevious⟩
  rw [serializeEventHistoryRecord] at hread hlength
  rw [parseRecordLines, if_neg (Nat.not_lt.mpr hlength)]
  simp only [hread]
  rw [if_neg]
  · rfl
  · rw [not_or, not_not, not_and, not_not, hprevious, hsequence]
    exact ⟨rfl, hnext⟩

/-! ## Bytes -/

theorem byteLength_lineFeed (rest : Text) : byteLength (0x0A :: rest) = 1 + byteLength rest := by
  cases rest with
  | nil => rfl
  | cons c rest =>
      rw [byteLength, if_pos (by decide)]

theorem byteLength_append_cons (front rest : Text) :
    byteLength (front ++ 0x0A :: rest) = byteLength (front ++ [0x0A]) + byteLength rest := by
  have htrailing : isTrailingSurrogate 0x0A = false := by decide
  induction front using byteLength.induct with
  | case1 =>
      rw [List.nil_append, List.nil_append, byteLength_lineFeed]
      rfl
  | case2 c hlow =>
      simp [byteLength, byteLength_lineFeed, hlow]
      omega
  | case3 c hlow hmiddle =>
      simp [byteLength, byteLength_lineFeed, hlow, hmiddle]
      omega
  | case4 c hlow hmiddle =>
      simp [byteLength, byteLength_lineFeed, hlow, hmiddle, htrailing]
      omega
  | case5 c d more hlow ih =>
      simp only [List.cons_append] at ih
      simp only [List.cons_append, byteLength, hlow, if_true, ih]
      omega
  | case6 c d more hlow hmiddle ih =>
      simp only [List.cons_append] at ih
      simp only [List.cons_append, byteLength, hlow, hmiddle, if_true, if_false, ih]
      omega
  | case7 c d more hlow hmiddle hpair ih =>
      simp only [List.cons_append, byteLength, hlow, hmiddle, hpair, if_true, if_false, ih]
      omega
  | case8 c d more hlow hmiddle hpair ih =>
      simp only [List.cons_append] at ih
      simp only [List.cons_append, byteLength, hlow, hmiddle, hpair, if_false, ih,
        Bool.false_eq_true]
      omega

/-- The bytes of a text behind ended lines. -/
theorem byteLength_append {text : Text} (h : IsEnded 0x0A text) (rest : Text) :
    byteLength (text ++ rest) = byteLength text + byteLength rest := by
  cases h with
  | inl hempty =>
      rw [hempty, List.nil_append, byteLength, Nat.zero_add]
  | inr hlast =>
      obtain ⟨front, rfl⟩ := List.getLast?_eq_some_iff.mp hlast
      rw [List.append_assoc, List.singleton_append, byteLength_append_cons]

/-- The bytes of a text are those of its first part, and more. -/
theorem byteLength_le_append (front rest : Text) : byteLength front ≤ byteLength (front ++ rest) := by
  induction front using byteLength.induct with
  | case1 => exact Nat.zero_le _
  | case2 c hlow =>
      cases rest <;> simp [byteLength, hlow]
  | case3 c hlow hmiddle =>
      cases rest <;> simp [byteLength, hlow, hmiddle]
  | case4 c hlow hmiddle =>
      cases rest with
      | nil => exact Nat.le_refl _
      | cons d rest =>
          simp only [List.singleton_append, byteLength, hlow, hmiddle, if_false]
          split_ifs <;> omega
  | case5 c d more hlow ih =>
      simp only [List.cons_append] at ih
      simp only [List.cons_append, byteLength, hlow, if_true]
      omega
  | case6 c d more hlow hmiddle ih =>
      simp only [List.cons_append] at ih
      simp only [List.cons_append, byteLength, hlow, hmiddle, if_true, if_false]
      omega
  | case7 c d more hlow hmiddle hpair ih =>
      simp only [List.cons_append, byteLength, hlow, hmiddle, hpair, if_true, if_false]
      omega
  | case8 c d more hlow hmiddle hpair ih =>
      simp only [List.cons_append] at ih
      simp only [List.cons_append, byteLength, hlow, hmiddle, hpair, if_false, Bool.false_eq_true]
      omega

theorem isEnded_of_parseRecords {text : Text} {previous : String} {records : List EventHistoryRecord}
    (h : parseRecords sha256 text previous = .ok records) : IsEnded 0x0A text := by
  simp only [parseRecords] at h
  split_ifs at h with hempty hwhole
  · exact .inl hempty
  · rw [Bool.or_eq_true, decide_eq_true_eq, not_or, not_not] at hwhole
    exact .inr ((getLast?_decodeUtf8 (by decide)).mp hwhole.1)

/-- A text without records is empty. -/
theorem parseRecords_nil {text : Text} {previous : String}
    (h : parseRecords sha256 text previous = .ok []) : text = [] := by
  simp only [parseRecords] at h
  split_ifs at h with hempty hwhole
  · exact hempty
  · rw [Bool.or_eq_true, decide_eq_true_eq, not_or, not_not] at hwhole
    obtain ⟨front, hfront⟩ := List.getLast?_eq_some_iff.mp hwhole.1
    rw [hfront, List.splitOn_append_cons_self, List.splitOn_nil, List.dropLast_concat] at h
    obtain ⟨line, lines, hlines⟩ := List.exists_cons_of_ne_nil (List.splitOn_ne_nil (0x0A : CodeUnit) front)
    rw [hlines, parseRecordLines] at h
    split_ifs at h with hlong
    cases hparsed : parseEventHistoryRecordLine sha256 (line ++ [0x0A]) with
    | error code => simp [hparsed] at h
    | ok record =>
        simp only [hparsed] at h
        split_ifs at h with hbroken
        obtain ⟨rest, -, hrecords⟩ := bind_ok.mp h
        cases hrecords

/-! ## The record that follows -/

section Append

variable {root : Root} {state : Reconstruction}

theorem Reconstructs.lastRecord_active (h : Reconstructs sha256 limits root state) :
    state.lastRecordSha256 = recordHead state.chain.previousRecord state.activeRecords := by
  rw [h.retained.lastRecord, Reconstruction.records, recordHead_append,
    ← (readSegments_chained h.segments).2]
  rfl

theorem Reconstructs.latest_active (h : Reconstructs sha256 limits root state) :
    state.latestSequence + 1 = state.chain.expectedSequence + state.activeRecords.length := by
  rw [h.latest_eq, Reconstruction.chain, (readSegments_ok h.segments).expected, Reconstruction.records,
    List.length_append]
  omega

/-- The history with a further record. -/
def Reconstruction.append (state : Reconstruction) (record : EventHistoryRecord) : Reconstruction :=
  { state with activeRecords := state.activeRecords ++ [record] }

theorem Reconstruction.records_append (state : Reconstruction) (record : EventHistoryRecord) :
    (state.append record).records = state.records ++ [record] := by
  simp [records, append]

/-- **A record that follows the last one** is read once its line was appended. -/
theorem Reconstructs.append (h : Reconstructs sha256 limits root state) {record : EventHistoryRecord}
    (hvalid : record.Valid sha256)
    (hlength : byteLength (serializeEventHistoryRecord record) ≤ eventHistoryMaxRecordBytes)
    (hprevious : record.previousRecordSha256 = state.lastRecordSha256)
    (hsequence : record.sequence = state.latestSequence + 1)
    (hevents : state.activeRecords.length + 1 ≤ limits.maxSegmentEvents)
    (hbytes : byteLength (root.active.getD []) + byteLength (serializeEventHistoryRecord record) ≤
      limits.maxSegmentBytes) :
    ∃ read, read.Same record ∧
      Reconstructs sha256 limits (root.append (serializeEventHistoryRecord record))
        (state.append read) := by
  have hlinked := h.linked_active
  have hlatest := h.latest_active
  rw [h.lastRecord_active] at hprevious
  have hnext : 0 < lastSequence 0 state.activeRecords →
      record.sequence = lastSequence 0 state.activeRecords + 1 := by
    intro _
    rw [lastSequence]
    cases hlast : state.activeRecords.getLast? with
    | none => simp_all [lastSequence]
    | some last =>
        have hlastSequence := hlinked.last_sequence hlast
        dsimp only
        omega
  obtain ⟨read, hread, hsame, hreadSequence, hreadPrevious⟩ :=
    parseRecordLines_serialize hvalid hlength hnext
  rw [hprevious] at hread
  refine ⟨read, hsame, {
    fault := h.fault
    transaction := h.transaction
    wellFormed := h.wellFormed
    anchor := h.anchor
    segments := by
      have hsame : readSegments sha256 (root.append (serializeEventHistoryRecord record)) state.start
          (segmentNames root) = readSegments sha256 root state.start (segmentNames root) :=
        readSegments_congr fun _ _ => ⟨rfl, rfl⟩
      exact hsame.trans h.segments
    active := ?_
    activeEvents := by
      rw [Reconstruction.append, List.length_append]
      exact hevents
    activeBytes := by
      show byteLength (root.active.getD [] ++ _) ≤ _
      rw [byteLength_append (isEnded_of_parseRecords h.active)]
      exact hbytes
    follows := ?_ }⟩
  · have hreturn : (0x0D : CodeUnit) ∉ canonicalJson (.obj record.fields) := fun hmem =>
      absurd (visible_canonicalJson _ _ hmem) (by decide)
    exact parseRecords_append h.active (lineFeed_not_mem_canonicalJson _) hreturn
      (head?_ne_byteOrderMark _ _) hread
  · show EventHistory.follows state.chain (state.activeRecords ++ [read]) = true
    cases hactive : state.activeRecords with
    | nil =>
        rw [hactive, List.length_nil, Nat.add_zero] at hlatest
        rw [hactive, recordHead_nil] at hprevious
        rw [List.nil_append, EventHistory.follows, hreadSequence, hreadPrevious, hsequence, hlatest,
          hprevious]
        simp
    | cons first rest =>
        have hfollows := h.follows
        rw [hactive] at hfollows
        exact hfollows

end Append

/-! ## Making room -/

/-- `validateLimit`, for both limits of a segment. -/
structure HistoryLimits.Valid (limits : HistoryLimits) : Prop where
  events : 100 ≤ limits.maxSegmentEvents ∧ limits.maxSegmentEvents ≤ 100000
  bytes : 1 * 1024 * 1024 ≤ limits.maxSegmentBytes ∧ limits.maxSegmentBytes ≤ 64 * 1024 * 1024

/-- What is beside the segments stays as it is. -/
structure Root.SameBeside (a b : Root) : Prop where
  ledger : b.ledger = a.ledger
  policy : b.policy = a.policy
  exportContents : b.exportContents = a.exportContents
  exportManifests : b.exportManifests = a.exportManifests

theorem Root.SameBeside.refl (root : Root) : root.SameBeside root := ⟨rfl, rfl, rfl, rfl⟩

section Room

variable {root : Root} {state : Reconstruction} {now : Timestamp}

/-- **There is room** for a line of a record, once the active segment was sealed if it had to be. -/
theorem makeRoom_spec (hsha256 : ∀ text, isSha256 (sha256 text) = true) (hlimits : limits.Valid)
    (h : Reconstructs sha256 limits root state) {line : Text}
    (hline : byteLength line ≤ eventHistoryMaxRecordBytes) (now : Timestamp) :
    ∃ root' state', makeRoom sha256 limits now root state line = (.ok (), root') ∧
      root.SameBeside root' ∧ Reconstructs sha256 limits root' state' ∧
      state'.records = state.records ∧ state'.start = state.start ∧
      state'.activeRecords.length + 1 ≤ limits.maxSegmentEvents ∧
      byteLength (root'.active.getD []) + byteLength line ≤ limits.maxSegmentBytes := by
  have hevents := hlimits.events
  have hbytes := hlimits.bytes
  rw [eventHistoryMaxRecordBytes] at hline
  by_cases hfull : isFull limits root state line = true
  · have hne : state.activeRecords ≠ [] := by
      intro hempty
      rw [isFull, hempty] at hfull
      simp at hfull
    obtain ⟨name, manifest, hrotate, hreads⟩ :=
      rotateOne_rotated hsha256 h (by omega) hne now
    refine ⟨root.sealActive name (root.active.getD []) manifest, state.sealActive manifest, ?_,
      ⟨rfl, rfl, rfl, rfl⟩, hreads, state.records_sealActive manifest, rfl, ?_, ?_⟩
    · simp only [makeRoom, hfull, if_true, hrotate, reconstruct_eq_ok.mpr hreads,
        ensureRoot_some hreads.fault]
    · show 0 + 1 ≤ limits.maxSegmentEvents
      omega
    · show 0 + byteLength line ≤ limits.maxSegmentBytes
      omega
  · refine ⟨root, state, ?_, .refl root, h, rfl, rfl, ?_⟩
    · simp only [makeRoom, hfull, Bool.false_eq_true, if_false]
    · simp only [isFull, Bool.and_eq_true, Bool.or_eq_true, decide_eq_true_eq, not_and, not_or,
        Nat.not_le, Nat.not_lt] at hfull
      by_cases hpos : 0 < state.activeRecords.length
      · have hroom := hfull hpos
        omega
      · -- an empty segment has no bytes
        have hempty : state.activeRecords = [] := List.length_eq_zero_iff.mp (by omega)
        have hactive := h.active
        rw [hempty] at hactive
        rw [parseRecords_nil hactive, hempty]
        show 0 + 1 ≤ limits.maxSegmentEvents ∧ 0 + byteLength line ≤ limits.maxSegmentBytes
        omega

end Room

/-! ## Appending an event -/

section Event

variable {root : Root} {state : Reconstruction} {now : Timestamp}

/-- A history with one more event, and what is beside its segments as before. -/
structure AppendsEvent (sha256 : Text → String) (limits : HistoryLimits) (root : Root)
    (state : Reconstruction) (event : AdministrativeEvent) (read : EventHistoryRecord) (root' : Root)
    (state' : Reconstruction) : Prop where
  beside : root.SameBeside root'
  reads : Reconstructs sha256 limits root' state'
  records : state'.records = state.records ++ [read]
  start : state'.start = state.start
  sequence : event.sequence = state.latestSequence + 1
  same : SameJson (.obj read.event.fields) (.obj event.fields)
  hash : ∃ record, createNextEventHistoryRecord sha256 event state.lastRecordSha256 = .ok record ∧
    read.recordSha256 = record.recordSha256

theorem isSha256_start (h : Reconstructs sha256 limits root state) :
    isSha256 state.start.previousRecord = true := by
  obtain ⟨latest, hlatest, hstart, -⟩ := h.anchor
  rw [hstart]
  cases latest with
  | none => exact isSha256_genesisHash
  | some anchor => exact (valid_of_readRetentionAnchor hlatest).nextRetainedPreviousRecordSha256

theorem EventHistoryRecord.Same.sequence {a b : EventHistoryRecord} (h : a.Same b) :
    a.sequence = b.sequence := by
  have hlookup := (sameJson_obj a.nodup_names_fields b.nodup_names_fields).mp h "sequence"
  rw [a.lookup_fields.2.1, b.lookup_fields.2.1] at hlookup
  have hsame : sortJson (.num a.sequence) = sortJson (.num b.sequence) := Option.some.inj hlookup
  simpa [sortJson] using hsame

theorem EventHistoryRecord.Same.event {a b : EventHistoryRecord} (h : a.Same b) :
    SameJson (.obj a.event.fields) (.obj b.event.fields) := by
  have hlookup := (sameJson_obj a.nodup_names_fields b.nodup_names_fields).mp h "event"
  rw [a.lookup_fields.2.2.1, b.lookup_fields.2.2.1] at hlookup
  exact Option.some.inj hlookup

theorem EventHistoryRecord.Same.recordSha256 {a b : EventHistoryRecord} (h : a.Same b) :
    a.recordSha256 = b.recordSha256 := by
  have hlookup := (sameJson_obj a.nodup_names_fields b.nodup_names_fields).mp h "recordSha256"
  rw [a.lookup_fields.2.2.2.2, b.lookup_fields.2.2.2.2] at hlookup
  have hsame : sortJson (.str a.recordSha256) = sortJson (.str b.recordSha256) :=
    Option.some.inj hlookup
  simpa [sortJson] using hsame

theorem sequence_of_created {input : AdministrativeEventInput} {n : Nat} {event : AdministrativeEvent}
    (h : createAdministrativeEvent (.obj (AdministrativeEvent.mk input n).fields) = .ok event) :
    event.sequence = n := by
  obtain ⟨-, hnumber, -⟩ := createAdministrativeEvent_eq_ok.mp h
  have hfield : JsValue.num (n : Rat) = .num event.sequence := hnumber.1
  rw [JsValue.num.injEq] at hfield
  exact_mod_cast hfield.symm

theorem isSha256_lastRecord (h : Reconstructs sha256 limits root state) :
    isSha256 state.lastRecordSha256 = true := by
  rw [Reconstruction.lastRecordSha256]
  cases hlast : state.records.getLast? with
  | some last => exact (h.linked.valid last (List.mem_of_getLast? hlast)).recordSha256
  | none =>
      rw [h.chain_of_records_nil (List.getLast?_eq_none_iff.mp hlast)]
      exact isSha256_start h

/-- An event that passes its check is appended, where its line is not too long. -/
theorem appendRecord_created (hsha256 : ∀ text, isSha256 (sha256 text) = true) (hlimits : limits.Valid)
    (h : Reconstructs sha256 limits root state) {input : AdministrativeEventInput}
    {event : AdministrativeEvent} (hchecked : Checked event)
    (hcreate : createAdministrativeEvent
      (.obj (AdministrativeEvent.mk input (state.latestSequence + 1)).fields) = .ok event)
    {record : EventHistoryRecord}
    (hrecord : createNextEventHistoryRecord sha256 event state.lastRecordSha256 = .ok record)
    (hshort : byteLength (serializeEventHistoryRecord record) ≤ eventHistoryMaxRecordBytes)
    (now : Timestamp) :
    ∃ read root' state', appendRecord sha256 limits now root state input =
        (.ok (event, state'), root') ∧
      AppendsEvent sha256 limits root state event read root' state' := by
  obtain ⟨record', hrecord', hevent, hown, hvalid⟩ :=
    createNextEventHistoryRecord_valid hsha256 hchecked (isSha256_lastRecord h)
  rw [hrecord, Except.ok.injEq] at hrecord'
  rw [← hrecord'] at hevent hown hvalid
  have hsequence := sequence_of_created hcreate
  obtain ⟨root', state', hroom, hbeside, hreads, hrecords, hstart, hevents, hbytes⟩ :=
    makeRoom_spec hsha256 hlimits h hshort now
  -- sealing the segment changes neither the last hash nor the last number
  have hsameLast : state'.lastRecordSha256 = state.lastRecordSha256 := by
    rw [hreads.retained.lastRecord, h.retained.lastRecord, hrecords, hstart]
  have hsameLatest : state'.latestSequence = state.latestSequence := by
    have hlatest := hreads.latest_eq
    rw [hrecords, hstart, ← h.latest_eq] at hlatest
    omega
  obtain ⟨read, hsame, hreads'⟩ := hreads.append hvalid hshort (by rw [hown, hsameLast])
    (by rw [← hvalid.sequence, hevent, hsequence, hsameLatest]) hevents hbytes
  refine ⟨read, root'.append (serializeEventHistoryRecord record), state'.append read, ?_, {
    beside := ⟨hbeside.ledger, hbeside.policy, hbeside.exportContents, hbeside.exportManifests⟩
    reads := hreads'
    records := by rw [state'.records_append, hrecords]
    start := hstart
    sequence := hsequence
    same := by
      have hsameEvent := hsame.event
      rw [hevent] at hsameEvent
      exact hsameEvent
    hash := ⟨record, hrecord, hsame.recordSha256⟩ }⟩
  simp only [appendRecord, hcreate, hrecord, Nat.not_lt.mpr hshort, if_false, hroom,
    reconstruct_eq_ok.mpr hreads']

/-- A line that is too long is refused. -/
theorem appendRecord_long {input : AdministrativeEventInput} {event : AdministrativeEvent}
    (hcreate : createAdministrativeEvent
      (.obj (AdministrativeEvent.mk input (state.latestSequence + 1)).fields) = .ok event)
    {record : EventHistoryRecord}
    (hrecord : createNextEventHistoryRecord sha256 event state.lastRecordSha256 = .ok record)
    (hlong : eventHistoryMaxRecordBytes < byteLength (serializeEventHistoryRecord record)) :
    appendRecord sha256 limits now root state input = (.error (.history .capacityExceeded), root) := by
  simp only [appendRecord, hcreate, hrecord, hlong, if_true]

/-- **An event is appended**, under the next number, or nothing was written. -/
theorem appendRecord_spec (hsha256 : ∀ text, isSha256 (sha256 text) = true) (hlimits : limits.Valid)
    (h : Reconstructs sha256 limits root state) {input : AdministrativeEventInput}
    (hjs : ∀ n, IsJs (.obj (AdministrativeEvent.mk input n).fields)) (now : Timestamp) :
    (∃ code, appendRecord sha256 limits now root state input = (.error code, root)) ∨
      ∃ event read root' state', appendRecord sha256 limits now root state input =
          (.ok (event, state'), root') ∧
        AppendsEvent sha256 limits root state event read root' state' := by
  cases hcreate : createAdministrativeEvent
      (.obj (AdministrativeEvent.mk input (state.latestSequence + 1)).fields) with
  | error code =>
      refine .inl ⟨.event code, ?_⟩
      simp only [appendRecord, hcreate]
  | ok event =>
      have hchecked : Checked event := ⟨_, hjs _, hcreate⟩
      obtain ⟨record, hrecord, -⟩ :=
        createNextEventHistoryRecord_valid hsha256 hchecked (isSha256_lastRecord h)
      by_cases hlong : eventHistoryMaxRecordBytes < byteLength (serializeEventHistoryRecord record)
      · exact .inl ⟨_, appendRecord_long hcreate hrecord hlong⟩
      · exact .inr ⟨event, appendRecord_created hsha256 hlimits h hchecked hcreate hrecord
          (Nat.le_of_not_lt hlong) now⟩

end Event

end AtlasManager.EventHistory
