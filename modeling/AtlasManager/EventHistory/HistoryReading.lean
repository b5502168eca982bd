import AtlasManager.EventHistory.SegmentedHistory

/-!
# AtlasManager.EventHistory.HistoryReading

What is known of a history that has been read.

* `Linked` -- records with consecutive numbers, the first of which follows a hash;
* `readSegments_append`, `readSegments_congr` -- segments are read one after the other, each from its
  own files;
* `reconstruct_eq_ok` -- a history has been read;
* `Reconstructs.linked` -- the records of the sealed segments and of the active one are linked.
-/

namespace AtlasManager.EventHistory

open AtlasManager.Lib AtlasManager.Lib.Rfc8259 AtlasManager.Backup

variable {sha256 : Text → String}

/-! ## Records -/

theorem valid_of_parseEventHistoryRecordLine {line : Text} {record : EventHistoryRecord}
    (h : parseEventHistoryRecordLine sha256 line = .ok record) : record.Valid sha256 := by
  obtain ⟨value, hline, hrecord⟩ := parseEventHistoryRecordLine_eq_ok.mp h
  cases value with
  | obj fields => exact valid_of_createEventHistoryRecord hline.isRead.2 hrecord
  | _ => cases hrecord

theorem EventHistoryRecord.Valid.sequence_bounds {record : EventHistoryRecord}
    (h : record.Valid sha256) : 1 ≤ record.sequence ∧ record.sequence < 2 ^ 53 := by
  obtain ⟨-, hsequence, -⟩ :=
    createAdministrativeEvent_eq_ok.mp (createAdministrativeEvent_again h.checked)
  rw [h.sequence] at hsequence
  exact hsequence.2

/-- Records with the numbers from `first` on, the first of which follows a hash. -/
structure Linked (sha256 : Text → String) (previous : String) (first : Nat)
    (records : List EventHistoryRecord) : Prop where
  valid : ∀ record ∈ records, record.Valid sha256
  sequences : records.map (·.sequence) = List.range' first records.length
  previous : ∀ record ∈ records.head?, record.previousRecordSha256 = previous

namespace Linked

variable {previous : String} {first : Nat} {records : List EventHistoryRecord}

theorem nil : Linked sha256 previous first [] := ⟨by simp, rfl, by simp⟩

/-- Behind linked records stand such that follow their last number. -/
theorem append {behind : List EventHistoryRecord} {hash : String}
    (h : Linked sha256 previous first records)
    (hbehind : Linked sha256 hash (first + records.length) behind)
    (hhash : records = [] → hash = previous) : Linked sha256 previous first (records ++ behind) where
  valid := List.forall_mem_append.mpr ⟨h.valid, hbehind.valid⟩
  sequences := by
    rw [List.map_append, h.sequences, hbehind.sequences, List.length_append, List.range'_append_1]
  previous := by
    cases hrecords : records with
    | nil =>
        rw [List.nil_append, ← hhash hrecords]
        exact hbehind.previous
    | cons record rest =>
        have hprevious := h.previous
        rw [hrecords] at hprevious
        exact hprevious

theorem head_sequence (h : Linked sha256 previous first records) {record : EventHistoryRecord}
    (hrecord : records.head? = some record) : record.sequence = first := by
  cases records with
  | nil => simp at hrecord
  | cons r rest =>
      have hsequences := h.sequences
      rw [List.map_cons, List.length_cons, List.range'_succ] at hsequences
      rw [List.head?_cons, Option.some.injEq] at hrecord
      rw [← hrecord]
      exact (List.cons.inj hsequences).1

theorem last_sequence (h : Linked sha256 previous first records) {record : EventHistoryRecord}
    (hrecord : records.getLast? = some record) : record.sequence + 1 = first + records.length := by
  have hne : records.length ≠ 0 := by
    intro hlength
    rw [List.length_eq_zero_iff.mp hlength] at hrecord
    simp at hrecord
  have hlast := congrArg List.getLast? h.sequences
  rw [List.getLast?_map, hrecord, List.getLast?_range', if_neg hne, Option.map_some,
    Option.some.injEq] at hlast
  omega

/-- A number in range is that of one record. -/
theorem find?_sequence (h : Linked sha256 previous first records) {record : EventHistoryRecord}
    (hrecord : record ∈ records) :
    (records.find? fun r => r.sequence = record.sequence) = some record := by
  have hnodup : (records.map (·.sequence)).Nodup := by
    rw [h.sequences]
    exact List.nodup_range'
  have hfound : (records.find? fun r => r.sequence = record.sequence).isSome := by
    rw [List.find?_isSome]
    exact ⟨record, hrecord, by simp⟩
  obtain ⟨found, hsome⟩ := Option.isSome_iff_exists.mp hfound
  have hsame : found.sequence = record.sequence := by simpa using List.find?_some hsome
  rw [hsome, List.inj_on_of_nodup_map hnodup (List.mem_of_find?_eq_some hsome) hrecord hsame]

end Linked

theorem linked_singleton {record : EventHistoryRecord} (h : record.Valid sha256) :
    Linked sha256 record.previousRecordSha256 record.sequence [record] where
  valid := List.forall_mem_singleton.mpr h
  sequences := rfl
  previous := by simp

theorem parseRecordLines_ok {previous : String} {n : Nat} {texts : List Text}
    {records : List EventHistoryRecord} (h : parseRecordLines sha256 previous n texts = .ok records) :
    (0 < n → ∀ record ∈ records.head?, record.sequence = n + 1) ∧
      ∀ first, (∀ record ∈ records.head?, record.sequence = first) →
        Linked sha256 previous first records := by
  induction texts generalizing previous n records with
  | nil =>
      rw [parseRecordLines, Except.ok.injEq] at h
      rw [← h]
      exact ⟨by simp, fun _ _ => .nil⟩
  | cons text rest ih =>
      rw [parseRecordLines] at h
      split_ifs at h with hlong
      cases hparsed : parseEventHistoryRecordLine sha256 (text ++ [0x0A]) with
      | error code => simp [hparsed] at h
      | ok record =>
          simp only [hparsed] at h
          split_ifs at h with hbroken
          obtain ⟨behind, hbehind, hrecords⟩ := bind_ok.mp h
          obtain rfl := Except.ok.inj hrecords
          have hvalid := valid_of_parseEventHistoryRecordLine hparsed
          rw [not_or, not_not, not_and, not_not] at hbroken
          obtain ⟨hnext, hlinked⟩ := ih hbehind
          refine ⟨fun hpos => by simpa using hbroken.2 hpos, fun first hfirst => ?_⟩
          have hsequence : record.sequence = first := hfirst record rfl
          have hone := linked_singleton hvalid
          rw [hbroken.1, hsequence] at hone
          have hmore := hlinked (record.sequence + 1) (hnext hvalid.sequence_bounds.1)
          rw [hsequence] at hmore
          exact hone.append hmore (by simp)

/-- The records of a text are linked. -/
theorem parseRecords_ok {text : Text} {previous : String} {records : List EventHistoryRecord}
    (h : parseRecords sha256 text previous = .ok records) {first : Nat}
    (hfirst : ∀ record ∈ records.head?, record.sequence = first) :
    Linked sha256 previous first records := by
  simp only [parseRecords] at h
  split_ifs at h with hempty hended
  · rw [← Except.ok.inj h]
    exact .nil
  · exact (parseRecordLines_ok h).2 first hfirst

theorem head?_canonicalJson_obj (fields : Fields) :
    (canonicalJson (.obj fields)).head? = some (unit '{') := rfl

/-- A line of a record starts with a brace, so there is no mark in front of it. -/
theorem head?_ne_byteOrderMark (fields : Fields) (behind : Text) :
    (canonicalJson (.obj fields) ++ behind).head? ≠ some byteOrderMark := by
  rw [List.head?_append, head?_canonicalJson_obj, Option.some_or]
  decide

/-- The line that is written of a record is read as one record. -/
theorem parseRecords_serialize {record : EventHistoryRecord} (hvalid : record.Valid sha256)
    (hlength : byteLength (serializeEventHistoryRecord record) ≤ eventHistoryMaxRecordBytes) :
    ∃ read, parseRecords sha256 (serializeEventHistoryRecord record) record.previousRecordSha256 =
      .ok [read] ∧ read.Same record ∧ read.sequence = record.sequence ∧
      read.previousRecordSha256 = record.previousRecordSha256 := by
  obtain ⟨read, hread, hsame, htext⟩ := parse_serialize hvalid
  obtain ⟨hsequence, -, hprevious⟩ :=
    (valid_of_parseEventHistoryRecordLine hread).eq_of_serializeForHash hvalid htext
  refine ⟨read, ?_, hsame, hsequence, hprevious⟩
  have hline : (0x0A : CodeUnit) ∉ canonicalJson (.obj record.fields) := fun h =>
    absurd (visible_canonicalJson _ _ h) (by decide)
  have hreturn : (0x0D : CodeUnit) ∉ serializeEventHistoryRecord record := by
    rw [serializeEventHistoryRecord, List.mem_append, not_or]
    exact ⟨fun h => absurd (visible_canonicalJson _ _ h) (by decide), by decide⟩
  have hlines : ((serializeEventHistoryRecord record).splitOn 0x0A).dropLast =
      [canonicalJson (.obj record.fields)] := by
    rw [serializeEventHistoryRecord, List.splitOn_append_cons_self, List.splitOn_eq_singleton hline]
    rfl
  have hdecoded : decodeUtf8 (serializeEventHistoryRecord record) = serializeEventHistoryRecord record :=
    decodeUtf8_of_head? (head?_ne_byteOrderMark _ _)
  simp only [parseRecords, hdecoded]
  rw [if_neg (by simp [serializeEventHistoryRecord]), if_neg, hlines, parseRecordLines]
  · rw [serializeEventHistoryRecord] at hread hlength
    rw [if_neg (Nat.not_lt.mpr hlength)]
    simp only [hread]
    rw [if_neg (by simp [hprevious])]
    rfl
  · simp [serializeEventHistoryRecord] at hreturn ⊢
    exact hreturn

/-! ## Segments -/

section Segments

variable {root : Root} {chain : Chain}

/-- A segment has been read. -/
structure ReadsSegment (sha256 : Text → String) (chain : Chain) (asked : SegmentName)
    (segment : SealedSegment) : Prop where
  name : segment.name = asked
  named : asked = ⟨segment.manifest.firstSequence, segment.manifest.lastSequence⟩
  manifest : segment.manifest.Valid
  linked : Linked sha256 chain.previousRecord chain.expectedSequence segment.records
  records_ne : segment.records ≠ []
  firstSequence : segment.manifest.firstSequence = chain.expectedSequence
  lastSequence : segment.manifest.lastSequence + 1 = chain.expectedSequence + segment.records.length
  eventCount : segment.manifest.eventCount = segment.records.length
  lastRecord : ∀ record ∈ segment.records.getLast?,
    segment.manifest.lastRecordSha256 = record.recordSha256

theorem readSegment_ok {name : SegmentName} {segment : SealedSegment}
    (h : readSegment sha256 root chain name = .ok segment) :
    ReadsSegment sha256 chain name segment := by
  rw [readSegment] at h
  split at h
  · rename_i bytes text hbytes htext
    obtain ⟨manifest, hmanifest, h⟩ := bind_ok.mp h
    obtain ⟨input, hinput, hparsed⟩ := bind_ok.mp hmanifest
    obtain ⟨records, hrecords, h⟩ := bind_ok.mp h
    split_ifs at h with hagrees hname
    obtain rfl := Except.ok.inj h
    rw [Bool.not_eq_true, Bool.not_eq_false', agrees] at hagrees
    split at hagrees
    · rename_i first last hfirst hlast
      simp only [Bool.and_eq_true, decide_eq_true_eq] at hagrees
      obtain ⟨⟨⟨⟨⟨⟨⟨⟨hsequence, hprevious⟩, hcontent⟩, hlength⟩, hsegment⟩, hmanifestFirst⟩,
        hmanifestLast⟩, hcount⟩, hhash⟩ := hagrees
      have hlinked : Linked sha256 chain.previousRecord chain.expectedSequence records :=
        parseRecords_ok hrecords (by simpa [hfirst] using hsequence)
      exact {
        name := rfl
        named := not_not.mp hname
        manifest := valid_of_parseSegmentManifest hparsed
        linked := hlinked
        records_ne := by
          intro hempty
          rw [show records = [] from hempty] at hfirst
          cases hfirst
        firstSequence := by rw [hmanifestFirst, hsequence]
        lastSequence := by rw [hmanifestLast, hlinked.last_sequence hlast]
        eventCount := hcount
        lastRecord := by simpa [hlast] using hhash }
    · simp at hagrees
  · cases h

theorem behind_nil : chain.behind [] = chain := rfl

theorem behind_cons (segment : SealedSegment) (segments : List SealedSegment) :
    chain.behind (segment :: segments) = (Chain.after segment.manifest).behind segments := by
  rw [Chain.behind, Chain.behind, List.getLast?_cons]
  cases segments.getLast? <;> rfl

theorem behind_append (a b : List SealedSegment) : chain.behind (a ++ b) = (chain.behind a).behind b := by
  induction a generalizing chain with
  | nil => rfl
  | cons segment a ih => rw [List.cons_append, behind_cons, behind_cons, ih]

/-- **Segments are read** one after the other. -/
theorem readSegments_append {a b : List SegmentName} {segments : List SealedSegment} :
    readSegments sha256 root chain (a ++ b) = .ok segments ↔
      ∃ front back, readSegments sha256 root chain a = .ok front ∧
        readSegments sha256 root (chain.behind front) b = .ok back ∧ segments = front ++ back := by
  induction a generalizing chain segments with
  | nil =>
      simp only [List.nil_append, readSegments, Except.ok.injEq]
      constructor
      · intro h
        exact ⟨[], segments, rfl, h, rfl⟩
      · intro h
        obtain ⟨front, back, hfront, hback, hsegments⟩ := h
        rw [← hfront, behind_nil] at hback
        rw [hback, hsegments, ← hfront, List.nil_append]
  | cons name a ih =>
      rw [List.cons_append, readSegments, readSegments]
      constructor
      · intro h
        obtain ⟨segment, hsegment, h⟩ := bind_ok.mp h
        obtain ⟨rest, hrest, h⟩ := bind_ok.mp h
        obtain ⟨front, back, hfront, hback, hrest⟩ := ih.mp hrest
        obtain rfl := Except.ok.inj h
        refine ⟨segment :: front, back, ?_, ?_, by rw [hrest, List.cons_append]⟩
        · exact bind_ok.mpr ⟨segment, hsegment, bind_ok.mpr ⟨front, hfront, rfl⟩⟩
        · rw [behind_cons]
          exact hback
      · intro h
        obtain ⟨front, back, hfront, hback, hsegments⟩ := h
        obtain ⟨segment, hsegment, hfront⟩ := bind_ok.mp hfront
        obtain ⟨rest, hrest, hfront⟩ := bind_ok.mp hfront
        obtain rfl := Except.ok.inj hfront
        rw [behind_cons] at hback
        refine bind_ok.mpr ⟨segment, hsegment, bind_ok.mpr ⟨rest ++ back, ?_, by rw [hsegments]; rfl⟩⟩
        exact ih.mpr ⟨rest, back, hrest, hback, rfl⟩

/-- Segments are read from their own files. -/
theorem readSegments_congr {root' : Root} {names : List SegmentName}
    (h : ∀ name ∈ names, root'.segments.get? name = root.segments.get? name ∧
      root'.manifests.get? name = root.manifests.get? name) :
    readSegments sha256 root' chain names = readSegments sha256 root chain names := by
  induction names generalizing chain with
  | nil => rfl
  | cons name names ih =>
      rw [List.forall_mem_cons] at h
      have hsegment : readSegment sha256 root' chain name = readSegment sha256 root chain name := by
        rw [readSegment, readSegment, h.1.1, h.1.2]
      rw [readSegments, readSegments, hsegment]
      simp only [ih h.2]

/-- What is known of segments that have been read. -/
structure ReadsSegments (sha256 : Text → String) (chain : Chain) (names : List SegmentName)
    (segments : List SealedSegment) : Prop where
  names : segments.map SealedSegment.name = names
  linked : Linked sha256 chain.previousRecord chain.expectedSequence
    (segments.flatMap SealedSegment.records)
  expected : (chain.behind segments).expectedSequence =
    chain.expectedSequence + (segments.flatMap SealedSegment.records).length
  manifests : ∀ segment ∈ segments, segment.manifest.Valid ∧
    segment.manifest.eventCount = segment.records.length
  records_ne : segments.flatMap SealedSegment.records = [] → segments = []

theorem readSegments_ok {names : List SegmentName} {segments : List SealedSegment}
    (h : readSegments sha256 root chain names = .ok segments) :
    ReadsSegments sha256 chain names segments := by
  induction names generalizing chain segments with
  | nil =>
      rw [readSegments, Except.ok.injEq] at h
      rw [← h]
      exact ⟨rfl, .nil, rfl, by simp, fun _ => rfl⟩
  | cons name names ih =>
      rw [readSegments] at h
      obtain ⟨segment, hsegment, h⟩ := bind_ok.mp h
      obtain ⟨rest, hrest, h⟩ := bind_ok.mp h
      obtain rfl := Except.ok.inj h
      have hfirst := readSegment_ok hsegment
      have hlater := ih hrest
      have hexpected : (Chain.after segment.manifest).expectedSequence =
          chain.expectedSequence + segment.records.length := hfirst.lastSequence
      refine ⟨?_, ?_, ?_, ?_, ?_⟩
      · rw [List.map_cons, hfirst.name, hlater.names]
      · have hlinked := hlater.linked
        rw [hexpected] at hlinked
        rw [List.flatMap_cons]
        exact hfirst.linked.append hlinked fun hempty => absurd hempty hfirst.records_ne
      · rw [behind_cons, hlater.expected, hexpected, List.flatMap_cons, List.length_append]
        omega
      · rw [List.forall_mem_cons]
        exact ⟨⟨hfirst.manifest, hfirst.eventCount⟩, hlater.manifests⟩
      · intro hempty
        rw [List.flatMap_cons, List.append_eq_nil_iff] at hempty
        exact absurd hempty.1 hfirst.records_ne

end Segments

/-! ## The ledger -/

section Ledger

variable {root : Root}

theorem readAnchor_eq_ok {text : Text} {anchor : EventHistoryRetentionAnchor} :
    readAnchor sha256 text = .ok anchor ↔ decode text >>= parseRetentionAnchor sha256 = .ok anchor := by
  rw [readAnchor]
  cases decode text >>= parseRetentionAnchor sha256 with
  | error code => simp
  | ok other => simp

theorem valid_of_readAnchor {text : Text} {anchor : EventHistoryRetentionAnchor}
    (h : readAnchor sha256 text = .ok anchor) : anchor.Valid sha256 := by
  obtain ⟨input, -, hparsed⟩ := bind_ok.mp (readAnchor_eq_ok.mp h)
  exact valid_of_parseRetentionAnchor hparsed

/-- The hash that the next anchor of a ledger has to name. -/
def headOf (previous : String) (anchors : List EventHistoryRetentionAnchor) : String :=
  match anchors.getLast? with
  | some anchor => anchor.retentionRecordSha256
  | none => previous

theorem headOf_cons (previous : String) (anchor : EventHistoryRetentionAnchor)
    (anchors : List EventHistoryRetentionAnchor) :
    headOf previous (anchor :: anchors) = headOf anchor.retentionRecordSha256 anchors := by
  rw [headOf, headOf, List.getLast?_cons]
  cases anchors.getLast? <;> rfl

/-- Anchors are read one after the other. -/
theorem readAnchors_append {previous : String} {a b : List Text}
    {anchors : List EventHistoryRetentionAnchor} :
    readAnchors sha256 previous (a ++ b) = .ok anchors ↔
      ∃ front back, readAnchors sha256 previous a = .ok front ∧
        readAnchors sha256 (headOf previous front) b = .ok back ∧ anchors = front ++ back := by
  induction a generalizing previous anchors with
  | nil =>
      simp only [List.nil_append, readAnchors, Except.ok.injEq]
      constructor
      · intro h
        exact ⟨[], anchors, rfl, h, rfl⟩
      · intro h
        obtain ⟨front, back, hfront, hback, hanchors⟩ := h
        rw [← hfront] at hback hanchors
        rw [hanchors]
        exact hback
  | cons text a ih =>
      rw [List.cons_append, readAnchors, readAnchors]
      constructor
      · intro h
        obtain ⟨anchor, hanchor, h⟩ := bind_ok.mp h
        split_ifs at h with hprevious
        obtain ⟨rest, hrest, h⟩ := bind_ok.mp h
        obtain ⟨front, back, hfront, hback, hrest⟩ := ih.mp hrest
        obtain rfl := Except.ok.inj h
        refine ⟨anchor :: front, back, ?_, ?_, by rw [hrest, List.cons_append]⟩
        · refine bind_ok.mpr ⟨anchor, hanchor, ?_⟩
          rw [if_neg hprevious]
          exact bind_ok.mpr ⟨front, hfront, rfl⟩
        · rw [headOf_cons]
          exact hback
      · intro h
        obtain ⟨front, back, hfront, hback, hanchors⟩ := h
        obtain ⟨anchor, hanchor, hfront⟩ := bind_ok.mp hfront
        split_ifs at hfront with hprevious
        obtain ⟨rest, hrest, hfront⟩ := bind_ok.mp hfront
        obtain rfl := Except.ok.inj hfront
        rw [headOf_cons] at hback
        refine bind_ok.mpr ⟨anchor, hanchor, ?_⟩
        rw [if_neg hprevious]
        exact bind_ok.mpr ⟨rest ++ back, ih.mpr ⟨rest, back, hrest, hback, rfl⟩, by rw [hanchors]; rfl⟩

theorem readAnchors_singleton {previous : String} {text : Text}
    {anchors : List EventHistoryRetentionAnchor} :
    readAnchors sha256 previous [text] = .ok anchors ↔
      ∃ anchor, readAnchor sha256 text = .ok anchor ∧ anchor.previousRetentionRecordSha256 = previous ∧
        anchors = [anchor] := by
  rw [readAnchors, bind_ok]
  refine exists_congr fun anchor => and_congr_right fun _ => ?_
  by_cases hprevious : anchor.previousRetentionRecordSha256 = previous
  · rw [if_neg (not_not.mpr hprevious)]
    simp [readAnchors, bind, Except.bind, pure, Except.pure, hprevious, eq_comm]
  · rw [if_pos hprevious]
    simp [hprevious]

/-- The last anchor of a ledger that has been read is that of its last line. -/
theorem readAnchors_getLast? {previous : String} {texts : List Text}
    {anchors : List EventHistoryRetentionAnchor} (h : readAnchors sha256 previous texts = .ok anchors) :
    match texts.getLast?, anchors.getLast? with
    | some text, some anchor => readAnchor sha256 text = .ok anchor
    | none, none => True
    | _, _ => False := by
  cases hlast : texts.getLast? with
  | none =>
      rw [List.getLast?_eq_none_iff] at hlast
      rw [hlast, readAnchors, Except.ok.injEq] at h
      rw [← h]
      trivial
  | some text =>
      obtain ⟨front, rfl⟩ := List.getLast?_eq_some_iff.mp hlast
      obtain ⟨a, b, -, hb, rfl⟩ := readAnchors_append.mp h
      obtain ⟨anchor, hanchor, -, rfl⟩ := readAnchors_singleton.mp hb
      rw [List.getLast?_append]
      exact hanchor

/-- The hash that an anchor, or none, leaves for the next one. -/
def anchorHash : Option EventHistoryRetentionAnchor → String
  | some anchor => anchor.retentionRecordSha256
  | none => genesisHash

theorem readRetentionAnchor_eq_ok {latest : Option EventHistoryRetentionAnchor} :
    readRetentionAnchor sha256 root = .ok latest ↔
      ∃ anchors, readAnchors sha256 genesisHash (lines 0x0A (root.ledger.getD [])) = .ok anchors ∧
        anchors.getLast? = latest := by
  rw [readRetentionAnchor]
  cases root.ledger with
  | none =>
      show Except.ok none = Except.ok latest ↔ ∃ anchors, readAnchors sha256 genesisHash [] = _ ∧ _
      simp [readAnchors, eq_comm]
  | some text =>
      simp only [bind_ok, Option.getD_some]
      refine exists_congr fun anchors => and_congr_right fun _ => ?_
      show Except.ok anchors.getLast? = Except.ok latest ↔ _
      rw [Except.ok.injEq]

theorem retentionAnchorHash_eq {latest : Option EventHistoryRetentionAnchor}
    (h : readRetentionAnchor sha256 root = .ok latest) :
    retentionAnchorHash sha256 root = .ok (anchorHash latest) := by
  obtain ⟨anchors, hanchors, hlatest⟩ := readRetentionAnchor_eq_ok.mp h
  have hlast := readAnchors_getLast? hanchors
  have hlines : (root.ledger.bind fun text => (lines 0x0A text).getLast?) =
      (lines 0x0A (root.ledger.getD [])).getLast? := by
    cases root.ledger <;> rfl
  rw [retentionAnchorHash, hlines]
  rw [hlatest] at hlast
  cases hline : (lines 0x0A (root.ledger.getD [])).getLast? with
  | none =>
      cases latest with
      | none => rfl
      | some anchor => simp [hline] at hlast
  | some text =>
      cases latest with
      | none => simp [hline] at hlast
      | some anchor =>
          simp only [hline] at hlast
          exact bind_ok.mpr ⟨anchor, hlast, rfl⟩

theorem valid_of_readRetentionAnchor {anchor : EventHistoryRetentionAnchor}
    (h : readRetentionAnchor sha256 root = .ok (some anchor)) : anchor.Valid sha256 := by
  obtain ⟨anchors, hanchors, hlatest⟩ := readRetentionAnchor_eq_ok.mp h
  have hlast := readAnchors_getLast? hanchors
  rw [hlatest] at hlast
  cases hline : (lines 0x0A (root.ledger.getD [])).getLast? with
  | none => simp [hline] at hlast
  | some text =>
      simp only [hline] at hlast
      exact valid_of_readAnchor hlast

/-- The line of an anchor has no end of a line within it. -/
theorem lineFeed_not_mem_canonicalJson (value : JsValue) : (0x0A : CodeUnit) ∉ canonicalJson value :=
  fun h => absurd (visible_canonicalJson value _ h) (by decide)

theorem canonicalJson_ne_nil {value : JsValue} (h : IsWritable value) : canonicalJson value ≠ [] := by
  obtain ⟨read, hread, -⟩ := parseStrictJson_canonicalJson h
  intro hempty
  rw [hempty] at hread
  obtain ⟨tree, ⟨text, rest, hblanks, hvalue, -⟩, -⟩ := Config.parse_eq_ok.mp hread
  have hlength := Config.ws_length_le hblanks
  have hlt := Config.isValue_length_lt hvalue
  rw [List.length_nil] at hlength
  omega

/-- **An anchor is appended** to a ledger whose last line is ended. -/
theorem readRetentionAnchor_append {latest : Option EventHistoryRetentionAnchor}
    (h : readRetentionAnchor sha256 root = .ok latest) (hended : IsEnded 0x0A (root.ledger.getD []))
    {anchor : EventHistoryRetentionAnchor} (hvalid : anchor.Valid sha256)
    (hprevious : anchor.previousRetentionRecordSha256 = anchorHash latest) {root' : Root}
    (hroot : root'.ledger = some (root.ledger.getD [] ++ jsonLine anchor.fields)) :
    readRetentionAnchor sha256 root' = .ok (some anchor) := by
  obtain ⟨anchors, hanchors, hlatest⟩ := readRetentionAnchor_eq_ok.mp h
  refine readRetentionAnchor_eq_ok.mpr ⟨anchors ++ [anchor], ?_, by simp⟩
  rw [hroot, Option.getD_some, lines_append hended, jsonLine,
    lines_singleton (canonicalJson_ne_nil hvalid.isWritable_fields) (lineFeed_not_mem_canonicalJson _)]
  refine readAnchors_append.mpr ⟨anchors, [anchor], hanchors, ?_, rfl⟩
  refine readAnchors_singleton.mpr ⟨anchor, ?_, ?_, rfl⟩
  · exact readAnchor_eq_ok.mpr (parseRetentionAnchor_written hvalid)
  · rw [hprevious, headOf, hlatest]
    cases latest <;> rfl

end Ledger

/-! ## The history -/

section History

variable {limits : HistoryLimits} {root : Root} {state : Reconstruction}

/-- A history has been read. -/
structure Reconstructs (sha256 : Text → String) (limits : HistoryLimits) (root : Root)
    (state : Reconstruction) : Prop where
  fault : root.fault = none
  transaction : root.transaction = false
  wellFormed : (root.segments.names ++ root.manifests.names).all SegmentName.isWellFormed = true
  anchor : ∃ anchor, readRetentionAnchor sha256 root = .ok anchor ∧
    state.start = Chain.ofAnchor anchor ∧ state.retentionAnchorPresent = anchor.isSome
  segments : readSegments sha256 root state.start (segmentNames root) = .ok state.sealed
  active : parseRecords sha256 (root.active.getD []) state.chain.previousRecord = .ok state.activeRecords
  activeEvents : state.activeRecords.length ≤ limits.maxSegmentEvents
  activeBytes : byteLength (root.active.getD []) ≤ limits.maxSegmentBytes
  follows : EventHistory.follows state.chain state.activeRecords = true

theorem reconstruct_eq_ok :
    reconstruct sha256 limits (some root) = .ok state ↔ Reconstructs sha256 limits root state := by
  rw [reconstruct]
  constructor
  · intro h
    cases hfault : root.fault with
    | some code => simp [hfault] at h
    | none =>
        simp only [hfault] at h
        split_ifs at h with htransaction hnames
        obtain ⟨anchor, hanchor, h⟩ := bind_ok.mp h
        obtain ⟨segments, hsegments, h⟩ := bind_ok.mp h
        obtain ⟨activeRecords, hactive, h⟩ := bind_ok.mp h
        split_ifs at h with hcapacity hfollows
        rw [Bool.not_eq_true, Bool.not_eq_false'] at hfollows
        obtain rfl := Except.ok.inj h
        simp only [Bool.or_eq_true, decide_eq_true_eq, not_or, Nat.not_lt] at hcapacity
        exact {
          fault := hfault
          transaction := by simpa using htransaction
          wellFormed := by simpa using hnames
          anchor := ⟨anchor, hanchor, rfl, rfl⟩
          segments := hsegments
          active := hactive
          activeEvents := hcapacity.1
          activeBytes := hcapacity.2
          follows := hfollows }
  · intro h
    obtain ⟨anchor, hanchor, hstart, hpresent⟩ := h.anchor
    have hsegments := h.segments
    have hactive := h.active
    have hfollows := h.follows
    rw [Reconstruction.chain, hstart] at hactive hfollows
    rw [hstart] at hsegments
    simp only [h.fault, h.transaction, h.wellFormed, Bool.false_eq_true, if_false, Bool.not_true]
    refine bind_ok.mpr ⟨anchor, hanchor, bind_ok.mpr ⟨state.sealed, hsegments, bind_ok.mpr
      ⟨state.activeRecords, hactive, ?_⟩⟩⟩
    rw [if_neg, if_neg]
    · rw [← hpresent, ← hstart]
    · simpa [Reconstruction.chain] using hfollows
    · simp [h.activeEvents, h.activeBytes]

namespace Reconstructs

/-- **The records of a history** are linked, from the first to the last. -/
theorem linked (h : Reconstructs sha256 limits root state) :
    Linked sha256 state.start.previousRecord state.start.expectedSequence state.records := by
  have hsegments := readSegments_ok h.segments
  have hfirst : ∀ record ∈ state.activeRecords.head?,
      record.sequence = state.chain.expectedSequence := by
    have hfollows := h.follows
    cases hactive : state.activeRecords with
    | nil => simp
    | cons record rest =>
        rw [hactive, EventHistory.follows, Bool.and_eq_true, decide_eq_true_eq] at hfollows
        simpa using hfollows.1
  have hactive := parseRecords_ok h.active hfirst
  rw [Reconstruction.chain, hsegments.expected] at hactive
  refine hsegments.linked.append hactive fun hempty => ?_
  rw [hsegments.records_ne hempty, behind_nil]

theorem start_pos (h : Reconstructs sha256 limits root state) : 1 ≤ state.start.expectedSequence := by
  obtain ⟨latest, hlatest, hstart, -⟩ := h.anchor
  rw [hstart]
  cases latest with
  | none => exact le_rfl
  | some anchor => exact (valid_of_readRetentionAnchor hlatest).nextRetainedSequence.1

/-- Without records there is no segment, and what follows is what the first segment would. -/
theorem chain_of_records_nil (h : Reconstructs sha256 limits root state) (hempty : state.records = []) :
    state.chain = state.start := by
  rw [Reconstruction.records, List.append_eq_nil_iff] at hempty
  rw [Reconstruction.chain, (readSegments_ok h.segments).records_ne hempty.1, behind_nil]

theorem earliest_eq (h : Reconstructs sha256 limits root state) :
    state.earliestRetainedSequence = state.start.expectedSequence := by
  rw [Reconstruction.earliestRetainedSequence]
  cases hrecord : state.records.head? with
  | none => rw [h.chain_of_records_nil (List.head?_eq_none_iff.mp hrecord)]
  | some record => exact h.linked.head_sequence hrecord

theorem latest_eq (h : Reconstructs sha256 limits root state) :
    state.latestSequence + 1 = state.start.expectedSequence + state.records.length := by
  rw [Reconstruction.latestSequence]
  cases hrecord : state.records.getLast? with
  | none =>
      have hempty := List.getLast?_eq_none_iff.mp hrecord
      have hpos := h.start_pos
      rw [h.chain_of_records_nil hempty, hempty]
      dsimp only [List.length_nil]
      omega
  | some record => exact h.linked.last_sequence hrecord

end Reconstructs

end History

end AtlasManager.EventHistory
