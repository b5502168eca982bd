import AtlasManager.EventHistory.HistoryReading

/-!
# AtlasManager.EventHistory.ExportFormat

The text of an export.

* `IsExport` -- the lines of an export: a header, the events of a range, and a footer;
* `isExport_iff` -- what is written for a range that is retained is such a text, and no other is.
-/

namespace AtlasManager.EventHistory

open AtlasManager.Lib AtlasManager.Lib.Rfc8259 AtlasManager.Backup
open AtlasManager.Config (parseStrictJson)

variable {sha256 : Text → String} {limits : HistoryLimits} {root : Root} {state : Reconstruction}
  {request : EventHistoryExportRequest}

/-! ## What an export says -/

/-- A line is the canonical text of a record, and it is read as that record. -/
def Says (text : Text) (fields : Fields) : Prop :=
  text = canonicalJson (.obj fields) ∧
    ∃ read, parseStrictJson text = .ok read ∧ SameJson (jsValue read) (.obj fields)

/-- The range of a request is not empty, and it has been retained. -/
def Exportable (state : Reconstruction) (request : EventHistoryExportRequest) : Prop :=
  state.earliestRetainedSequence ≤ request.fromSequence ∧
    request.fromSequence ≤ request.throughSequence ∧ request.throughSequence ≤ state.latestSequence

def footerFields (count first last : Nat) (firstHash lastHash contentHash ownHash : String) : Fields :=
  [("kind", .str "footer"), ("exportedEventCount", .num count), ("firstExportedSequence", .num first),
    ("lastExportedSequence", .num last), ("firstRecordSha256", .str firstHash),
    ("lastRecordSha256", .str lastHash), ("eventContentSha256", .str contentHash),
    ("exportSha256", .str ownHash)]

/-- **The lines of an export**: a header, the events of the range in order, and a footer with their
number, the hashes of the first and the last record, the hash of the lines of the events, and the hash
of the export with an empty hash in its place. -/
def IsExport (sha256 : Text → String) (state : Reconstruction) (request : EventHistoryExportRequest)
    (generatedAt : Timestamp) (retentionAnchorSha256 : String) (content : Text) : Prop :=
  ∃ (header : Text) (eventTexts : List Text) (footer : Text) (first last : EventHistoryRecord)
    (ownHash : String),
    content = unlines 0x0A (header :: (eventTexts ++ [footer])) ∧
    lines 0x0A content = header :: (eventTexts ++ [footer]) ∧
    Says header (exportHeader state request generatedAt retentionAnchorSha256) ∧
    List.Forall₂ Says eventTexts ((exportedEvents state request).map exportEvent) ∧
    (exportedEvents state request).map (·.sequence) =
      List.range' request.fromSequence (request.throughSequence + 1 - request.fromSequence) ∧
    (first ∈ state.records ∧ first.sequence = request.fromSequence) ∧
    (last ∈ state.records ∧ last.sequence = request.throughSequence) ∧
    Says footer (footerFields eventTexts.length request.fromSequence request.throughSequence
      first.recordSha256 last.recordSha256 (sha256 (unlines 0x0A eventTexts)) ownHash) ∧
    ownHash = sha256 (unlines 0x0A (header :: (eventTexts ++
      [canonicalJson (.obj (footerFields eventTexts.length request.fromSequence
        request.throughSequence first.recordSha256 last.recordSha256
        (sha256 (unlines 0x0A eventTexts)) ""))])))

/-! ## The events of a range -/

/-- The numbers of a range, among consecutive ones. -/
theorem filter_range' {start count first last : Nat} (hfirst : start ≤ first) (hle : first ≤ last)
    (hlast : last + 1 ≤ start + count) :
    (List.range' start count).filter (fun n => first ≤ n && n ≤ last) =
      List.range' first (last + 1 - first) := by
  have hsplit : List.range' start count = List.range' start (first - start) ++
      (List.range' first (last + 1 - first) ++ List.range' (last + 1) (start + count - (last + 1))) := by
    have hback := @List.range'_append_1 first (last + 1 - first) (start + count - (last + 1))
    have hfront := @List.range'_append_1 start (first - start) (start + count - first)
    rw [show first + (last + 1 - first) = last + 1 by omega,
      show last + 1 - first + (start + count - (last + 1)) = start + count - first by omega] at hback
    rw [show start + (first - start) = first by omega,
      show first - start + (start + count - first) = count by omega] at hfront
    rw [hback, hfront]
  have hbefore : (List.range' start (first - start)).filter (fun n => first ≤ n && n ≤ last) = [] := by
    rw [List.filter_eq_nil_iff]
    intro n hn
    rw [List.mem_range'_1] at hn
    simp only [Bool.and_eq_true, decide_eq_true_eq]
    omega
  have hwithin : (List.range' first (last + 1 - first)).filter (fun n => first ≤ n && n ≤ last) =
      List.range' first (last + 1 - first) := by
    rw [List.filter_eq_self]
    intro n hn
    rw [List.mem_range'_1] at hn
    simp only [Bool.and_eq_true, decide_eq_true_eq]
    omega
  have hbehind : (List.range' (last + 1) (start + count - (last + 1))).filter
      (fun n => first ≤ n && n ≤ last) = [] := by
    rw [List.filter_eq_nil_iff]
    intro n hn
    rw [List.mem_range'_1] at hn
    simp only [Bool.and_eq_true, decide_eq_true_eq]
    omega
  rw [hsplit, List.filter_append, List.filter_append, hbefore, hwithin, hbehind, List.nil_append,
    List.append_nil]

namespace Reconstructs

theorem sequences_events (h : Reconstructs sha256 limits root state) :
    state.events.map (·.sequence) =
      List.range' state.start.expectedSequence state.records.length := by
  rw [← h.linked.sequences, Reconstruction.events, List.map_map]
  exact List.map_congr_left fun record hrecord => (h.linked.valid record hrecord).sequence

/-- **The events of a range** that is retained have its numbers, in order. -/
theorem sequences_exportedEvents (h : Reconstructs sha256 limits root state)
    (hrange : Exportable state request) :
    (exportedEvents state request).map (·.sequence) =
      List.range' request.fromSequence (request.throughSequence + 1 - request.fromSequence) := by
  have hearliest := h.earliest_eq
  have hlatest := h.latest_eq
  obtain ⟨hfirst, hle, hlast⟩ := hrange
  have hfilter : (state.events.map (·.sequence)).filter (fun n =>
      request.fromSequence ≤ n && n ≤ request.throughSequence) =
      (exportedEvents state request).map (·.sequence) := by
    rw [List.filter_map]
    rfl
  rw [h.sequences_events, filter_range' (by omega) hle (by omega)] at hfilter
  exact hfilter.symm

theorem length_exportedEvents (h : Reconstructs sha256 limits root state)
    (hrange : Exportable state request) :
    (exportedEvents state request).length = request.throughSequence + 1 - request.fromSequence := by
  have hlength := congrArg List.length (h.sequences_exportedEvents hrange)
  rwa [List.length_map, List.length_range'] at hlength

/-- Every number that is retained is that of a record. -/
theorem exists_record (h : Reconstructs sha256 limits root state) {n : Nat}
    (hfirst : state.earliestRetainedSequence ≤ n) (hlast : n ≤ state.latestSequence) :
    ∃ record ∈ state.records, record.sequence = n := by
  have hearliest := h.earliest_eq
  have hlatest := h.latest_eq
  have hmem : n ∈ state.records.map (·.sequence) := by
    rw [h.linked.sequences, List.mem_range'_1]
    omega
  exact List.mem_map.mp hmem

theorem recordHashOf_eq (h : Reconstructs sha256 limits root state) {event : AdministrativeEvent}
    {record : EventHistoryRecord} (hrecord : record ∈ state.records)
    (hsequence : record.sequence = event.sequence) :
    recordHashOf state (some event) = .str record.recordSha256 := by
  have hfind := h.linked.find?_sequence hrecord
  rw [hsequence] at hfind
  rw [recordHashOf, hfind]

end Reconstructs

/-! ## The lines -/

theorem says_canonicalJson {fields : Fields} (h : IsWritable (.obj fields)) :
    Says (canonicalJson (.obj fields)) fields := by
  obtain ⟨read, hread, hvalue⟩ := parseStrictJson_canonicalJson h
  refine ⟨rfl, read, hread, ?_⟩
  rw [hvalue]
  exact sortJson_sortJson h

/-- The names and the fixed texts of the lines. -/
def exportTexts : List String :=
  ["schemaVersion", "kind", "atlas-manager-event-history-export", "fromSequence", "throughSequence",
    "generatedAt", "filters", "earliestRetainedSequence", "retentionAnchorSha256", "event", "footer",
    "exportedEventCount", "firstExportedSequence", "lastExportedSequence", "firstRecordSha256",
    "lastRecordSha256", "eventContentSha256", "exportSha256", ""]

theorem isUnits_exportTexts : ∀ text ∈ exportTexts, IsUnits text := isUnits_of_all (by decide)

theorem isWritable_exportHeader {generatedAt : Timestamp} {hash : String}
    (hfirst : request.fromSequence < 2 ^ 53) (hlast : request.throughSequence < 2 ^ 53)
    (hearliest : state.earliestRetainedSequence < 2 ^ 53) (hhash : isSha256 hash = true) :
    IsWritable (.obj (exportHeader state request generatedAt hash)) := by
  refine ⟨by simp [exportHeader], fieldsAreWritable_iff.mpr fun f hf =>
    ⟨isUnits_exportTexts f.1 ?_, ?_⟩⟩
  · revert f hf
    simp [exportHeader, exportTexts]
  · revert f hf
    simp only [exportHeader, List.forall_mem_cons, List.not_mem_nil, false_implies, implies_true,
      and_true]
    exact ⟨isWritable_nat (by decide), isUnits_exportTexts _ (by decide), isWritable_nat hfirst,
      isWritable_nat hlast, isUnits_timestamp _, ⟨by simp, trivial⟩, isWritable_nat hearliest,
      isUnits_of_isSha256 hhash⟩

theorem isWritable_exportEvent {event : AdministrativeEvent} (h : Checked event) :
    IsWritable (.obj (exportEvent event)) := by
  have hname := isUnits_exportTexts
  exact ⟨by simp [exportEvent], hname _ (by decide), hname _ (by decide), hname _ (by decide),
    isWritable_fields h, trivial⟩

theorem isWritable_footerFields {count first last : Nat} {firstHash lastHash contentHash ownHash : String}
    (hcount : count < 2 ^ 53) (hfirst : first < 2 ^ 53) (hlast : last < 2 ^ 53)
    (hfirstHash : IsUnits firstHash) (hlastHash : IsUnits lastHash) (hcontentHash : IsUnits contentHash)
    (hownHash : IsUnits ownHash) :
    IsWritable (.obj (footerFields count first last firstHash lastHash contentHash ownHash)) := by
  refine ⟨by simp [footerFields], fieldsAreWritable_iff.mpr fun f hf =>
    ⟨isUnits_exportTexts f.1 ?_, ?_⟩⟩
  · revert f hf
    simp [footerFields, exportTexts]
  · revert f hf
    simp only [footerFields, List.forall_mem_cons, List.not_mem_nil, false_implies, implies_true,
      and_true]
    exact ⟨isUnits_exportTexts _ (by decide), isWritable_nat hcount, isWritable_nat hfirst,
      isWritable_nat hlast, hfirstHash, hlastHash, hcontentHash, hownHash⟩

theorem exportEventLines_eq (events : List AdministrativeEvent) :
    exportEventLines events =
      unlines 0x0A (events.map fun event => canonicalJson (.obj (exportEvent event))) := by
  rw [exportEventLines, unlines, List.flatMap_map]
  rfl

namespace Reconstructs

/-- The footer that is written has the numbers and the hashes of the range. -/
theorem exportFooter_eq (h : Reconstructs sha256 limits root state) (hrange : Exportable state request)
    {first last : EventHistoryRecord}
    (hfirst : first ∈ state.records ∧ first.sequence = request.fromSequence)
    (hlast : last ∈ state.records ∧ last.sequence = request.throughSequence) (ownHash : String) :
    exportFooter sha256 state (exportedEvents state request) ownHash =
      footerFields (exportedEvents state request).length request.fromSequence request.throughSequence
        first.recordSha256 last.recordSha256
        (sha256 (exportEventLines (exportedEvents state request))) ownHash := by
  have hsequences := h.sequences_exportedEvents hrange
  have hcount : request.throughSequence + 1 - request.fromSequence ≠ 0 := by
    have hle := hrange.2.1
    omega
  have hhead := congrArg List.head? hsequences
  have hback := congrArg List.getLast? hsequences
  rw [List.head?_map, List.head?_range', if_neg hcount] at hhead
  rw [List.getLast?_map, List.getLast?_range', if_neg hcount] at hback
  obtain ⟨front, hfront, hfrontSequence⟩ := Option.map_eq_some_iff.mp hhead
  obtain ⟨back, hbackEvent, hbackSequence⟩ := Option.map_eq_some_iff.mp hback
  have hle := hrange.2.1
  rw [exportFooter, footerFields, hfront, hbackEvent,
    h.recordHashOf_eq hfirst.1 (by rw [hfirst.2, hfrontSequence]),
    h.recordHashOf_eq hlast.1 (by rw [hlast.2, hbackSequence]; omega)]
  simp only [Option.map_some, Option.getD_some, hfrontSequence, hbackSequence]
  rw [show request.fromSequence + (request.throughSequence + 1 - request.fromSequence) - 1 =
    request.throughSequence by omega]

end Reconstructs

/-! ## The whole text -/

theorem unlines_layout (header footer : Text) (texts : List Text) :
    unlines 0x0A (header :: (texts ++ [footer])) =
      header ++ [0x0A] ++ unlines 0x0A texts ++ (footer ++ [0x0A]) := by
  simp [unlines, List.flatMap_append]

/-- The text of an export, for the records at the ends of its range. -/
theorem Reconstructs.exportContent_eq (h : Reconstructs sha256 limits root state)
    (hrange : Exportable state request) {first last : EventHistoryRecord}
    (hfirst : first ∈ state.records ∧ first.sequence = request.fromSequence)
    (hlast : last ∈ state.records ∧ last.sequence = request.throughSequence) {header : Fields}
    {texts : List Text}
    (htexts : texts = (exportedEvents state request).map fun event =>
      canonicalJson (.obj (exportEvent event))) :
    let footer := fun ownHash => canonicalJson (.obj (footerFields texts.length request.fromSequence
      request.throughSequence first.recordSha256 last.recordSha256 (sha256 (unlines 0x0A texts)) ownHash))
    exportContent sha256 header state (exportedEvents state request) =
      unlines 0x0A (canonicalJson (.obj header) :: (texts ++ [footer
        (sha256 (unlines 0x0A (canonicalJson (.obj header) :: (texts ++ [footer ""]))))])) := by
  have hlength : (exportedEvents state request).length = texts.length := by
    rw [htexts, List.length_map]
  simp only [exportContent, h.exportFooter_eq hrange hfirst hlast, exportEventLines_eq, ← htexts,
    hlength, unlines_layout, jsonLine]

theorem forall₂_says_iff {texts : List Text} {events : List AdministrativeEvent}
    (hevents : ∀ event ∈ events, Checked event) :
    List.Forall₂ Says texts (events.map exportEvent) ↔
      texts = events.map fun event => canonicalJson (.obj (exportEvent event)) := by
  constructor
  · intro h
    induction events generalizing texts with
    | nil =>
        rw [List.map_nil, List.forall₂_nil_right_iff] at h
        exact h
    | cons event events ih =>
        rw [List.map_cons, List.forall₂_cons_right_iff] at h
        obtain ⟨text, rest, hsays, hrest, rfl⟩ := h
        rw [List.forall_mem_cons] at hevents
        rw [List.map_cons, ← ih hevents.2 hrest, hsays.1]
  · intro h
    rw [h, List.forall₂_map_left_iff, List.forall₂_map_right_iff, List.forall₂_same]
    exact fun event hevent => says_canonicalJson (isWritable_exportEvent (hevents event hevent))

namespace Reconstructs

theorem checked_of_exported (h : Reconstructs sha256 limits root state) :
    ∀ event ∈ exportedEvents state request, Checked event := by
  intro event hevent
  obtain ⟨record, hrecord, rfl⟩ := List.mem_map.mp (List.mem_filter.mp hevent).1
  exact (h.linked.valid record hrecord).checked

theorem latest_lt (h : Reconstructs sha256 limits root state) (hrange : Exportable state request) :
    state.latestSequence < 2 ^ 53 := by
  obtain ⟨record, hrecord, hsequence⟩ :=
    h.exists_record (hrange.1.trans (hrange.2.1.trans hrange.2.2)) le_rfl
  rw [← hsequence]
  exact (h.linked.valid record hrecord).sequence_bounds.2

end Reconstructs

/-- **What is written for a range** that is retained is an export, and nothing else is. -/
theorem isExport_iff (hsha256 : ∀ text, isSha256 (sha256 text) = true)
    (h : Reconstructs sha256 limits root state) (hrange : Exportable state request)
    {generatedAt : Timestamp} {hash : String} (hhash : isSha256 hash = true) {content : Text} :
    IsExport sha256 state request generatedAt hash content ↔
      content = exportContent sha256 (exportHeader state request generatedAt hash) state
        (exportedEvents state request) := by
  have hchecked : ∀ event ∈ exportedEvents state request, Checked event := h.checked_of_exported
  constructor
  · intro hexport
    obtain ⟨header, texts, footer, first, last, ownHash, hcontent, -, hheader, hevents, -, hfirst, hlast,
      hfooter, hown⟩ := hexport
    rw [h.exportContent_eq hrange hfirst hlast ((forall₂_says_iff hchecked).mp hevents), hcontent,
      hfooter.1, hown, hheader.1]
  · intro hcontent
    obtain ⟨first, hfirst⟩ := h.exists_record hrange.1 (hrange.2.1.trans hrange.2.2)
    obtain ⟨last, hlast⟩ := h.exists_record (hrange.1.trans hrange.2.1) hrange.2.2
    obtain ⟨hearliest, hle, hlatest⟩ := hrange
    have hlt := h.latest_lt ⟨hearliest, hle, hlatest⟩
    have hlength := h.length_exportedEvents ⟨hearliest, hle, hlatest⟩
    have hpos := h.start_pos
    rw [← h.earliest_eq] at hpos
    have hheader : IsWritable (.obj (exportHeader state request generatedAt hash)) :=
      isWritable_exportHeader (by omega) (by omega) (by omega) hhash
    have hvalid := h.linked.valid
    have htexts : ∀ texts : List Text, texts = (exportedEvents state request).map (fun event =>
        canonicalJson (.obj (exportEvent event))) → texts.length < 2 ^ 53 ∧
          ∀ text ∈ texts, text ≠ [] ∧ (0x0A : CodeUnit) ∉ text := by
      intro texts heq
      rw [heq, List.length_map, hlength, List.forall_mem_map]
      refine ⟨by omega, fun event hevent => ⟨?_, lineFeed_not_mem_canonicalJson _⟩⟩
      exact canonicalJson_ne_nil (isWritable_exportEvent (hchecked event hevent))
    generalize hgen : (exportedEvents state request).map (fun event =>
      canonicalJson (.obj (exportEvent event))) = texts at htexts
    obtain ⟨hcount, hlines⟩ := htexts texts rfl
    have hfooter : ∀ ownHash, IsUnits ownHash → IsWritable (.obj (footerFields texts.length
        request.fromSequence request.throughSequence first.recordSha256 last.recordSha256
        (sha256 (unlines 0x0A texts)) ownHash)) := fun ownHash hown =>
      isWritable_footerFields hcount (by omega) (by omega)
        (isUnits_of_isSha256 (hvalid first hfirst.1).recordSha256)
        (isUnits_of_isSha256 (hvalid last hlast.1).recordSha256)
        (isUnits_of_isSha256 (hsha256 _)) hown
    have hown := hfooter _ (isUnits_of_isSha256 (hsha256 (unlines 0x0A
      (canonicalJson (.obj (exportHeader state request generatedAt hash)) :: (texts ++
        [canonicalJson (.obj (footerFields texts.length request.fromSequence request.throughSequence
          first.recordSha256 last.recordSha256 (sha256 (unlines 0x0A texts)) ""))])))))
    rw [h.exportContent_eq ⟨hearliest, hle, hlatest⟩ hfirst hlast hgen.symm] at hcontent
    refine ⟨_, texts, _, first, last, _, hcontent, ?_, says_canonicalJson hheader, ?_,
      h.sequences_exportedEvents ⟨hearliest, hle, hlatest⟩, hfirst, hlast, says_canonicalJson hown, rfl⟩
    · rw [hcontent, lines_unlines]
      rw [List.forall_mem_cons, List.forall_mem_append, List.forall_mem_singleton]
      exact ⟨⟨canonicalJson_ne_nil hheader, lineFeed_not_mem_canonicalJson _⟩, hlines,
        canonicalJson_ne_nil hown, lineFeed_not_mem_canonicalJson _⟩
    · exact (forall₂_says_iff hchecked).mpr hgen.symm

end AtlasManager.EventHistory
