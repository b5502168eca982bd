import AtlasManager.EventHistory.ExportFormat
import AtlasManager.Lib.Sha256

/-!
# AtlasManager.EventHistory.HistoryExports

Exports of a history: which are created, and what is read of them.

* `ConsistentHistory` -- a history whose files and exports can be read;
* `readExports_eq_ok`, `getExport_of_lists` -- the exports that are in the directory;
* `prepareExport_eq_ok` -- the requests for which there is an export;
* `exportsRange` -- **an export** is created exactly for a range that is retained, what is read of it
  has the events of the range, and the history stays as it is.
-/

namespace AtlasManager.EventHistory

open AtlasManager.Lib AtlasManager.Lib.Rfc8259 AtlasManager.Backup

variable {sha256 : Text → String} {limits : HistoryLimits}

/-! ## The directory of exports -/

section Directory

variable {root : Root}

/-- An export has been read: its metadata, and its content. -/
structure ReadsExport (sha256 : Text → String) (root : Root) (exportId : String)
    (metadata : EventHistoryExportMetadata) : Prop where
  manifest : ∃ text, root.exportManifests.get? exportId = some text ∧
    decode text >>= parseExportMetadata = .ok metadata
  ownId : metadata.exportId = exportId
  content : ∃ content, root.exportContents.get? exportId = some content ∧
    sha256 content = exportId ∧ metadata.contentSha256 = exportId ∧
    metadata.byteCount = byteLength content

theorem readVerifiedExportContent_eq_ok {metadata : EventHistoryExportMetadata} {exportId : String}
    {content : Text} :
    readVerifiedExportContent sha256 root metadata exportId = .ok content ↔
      root.exportContents.get? exportId = some content ∧ metadata.exportId = sha256 content ∧
        metadata.contentSha256 = sha256 content ∧ metadata.byteCount = byteLength content := by
  rw [readVerifiedExportContent]
  cases root.exportContents.get? exportId with
  | none => simp
  | some stored =>
      dsimp only
      split_ifs with hbroken
      · simp only [Bool.or_eq_true, decide_eq_true_eq] at hbroken
        simp only [Option.some.injEq, false_iff]
        rintro ⟨rfl, hid, hhash, hbytes⟩
        simp [hid, hhash, hbytes] at hbroken
      · simp only [Bool.or_eq_true, decide_eq_true_eq, not_or, not_not] at hbroken
        rw [Except.ok.injEq, Option.some.injEq]
        constructor
        · intro h
          rw [← h]
          exact ⟨rfl, hbroken.1.1, hbroken.1.2, hbroken.2⟩
        · exact fun h => h.1

theorem readExportMetadata_eq_ok {exportId : String} {text : Text} {metadata : EventHistoryExportMetadata}
    (htext : root.exportManifests.get? exportId = some text) :
    readExportMetadata sha256 root exportId text = .ok metadata ↔
      ReadsExport sha256 root exportId metadata := by
  rw [readExportMetadata]
  constructor
  · intro h
    obtain ⟨read, hread, h⟩ := bind_ok.mp h
    split_ifs at h with hid
    obtain ⟨content, hcontent, h⟩ := bind_ok.mp h
    obtain rfl := Except.ok.inj h
    obtain ⟨hstored, hown, hhash, hbytes⟩ := readVerifiedExportContent_eq_ok.mp hcontent
    rw [not_not] at hid
    exact ⟨⟨text, htext, hread⟩, hid, content, hstored, by rw [← hown, hid], by rw [hhash, ← hown, hid],
      hbytes⟩
  · intro h
    obtain ⟨text', htext', hread⟩ := h.manifest
    obtain ⟨content, hstored, hown, hhash, hbytes⟩ := h.content
    rw [htext, Option.some.injEq] at htext'
    rw [← htext'] at hread
    refine bind_ok.mpr ⟨metadata, hread, ?_⟩
    rw [if_neg (not_not.mpr h.ownId)]
    refine bind_ok.mpr ⟨content, readVerifiedExportContent_eq_ok.mpr ⟨hstored, ?_, ?_, hbytes⟩, rfl⟩
    · rw [h.ownId, hown]
    · rw [hhash, hown]

theorem readExports_eq_ok {ids : List String} {metadatas : List EventHistoryExportMetadata} :
    readExports sha256 root ids = .ok metadatas ↔
      List.Forall₂ (ReadsExport sha256 root) ids metadatas := by
  induction ids generalizing metadatas with
  | nil => rw [readExports, Except.ok.injEq, List.forall₂_nil_left_iff, eq_comm]
  | cons exportId ids ih =>
      rw [readExports, List.forall₂_cons_left_iff]
      cases htext : root.exportManifests.get? exportId with
      | none =>
          simp only [reduceCtorEq, false_iff]
          rintro ⟨metadata, rest, hreads, -, -⟩
          obtain ⟨text, hsome, -⟩ := hreads.manifest
          rw [htext] at hsome
          cases hsome
      | some text =>
          dsimp only
          constructor
          · intro h
            obtain ⟨metadata, hmetadata, h⟩ := bind_ok.mp h
            obtain ⟨rest, hrest, h⟩ := bind_ok.mp h
            obtain rfl := Except.ok.inj h
            exact ⟨metadata, rest, (readExportMetadata_eq_ok htext).mp hmetadata, ih.mp hrest, rfl⟩
          · intro h
            obtain ⟨metadata, rest, hreads, hrest, rfl⟩ := h
            exact bind_ok.mpr ⟨metadata, (readExportMetadata_eq_ok htext).mpr hreads,
              bind_ok.mpr ⟨rest, ih.mpr hrest, rfl⟩⟩

theorem exportsPaired_iff : root.exportsPaired = true ↔
    ∀ exportId ∈ root.exportContents.names ++ root.exportManifests.names,
      isSha256 exportId = true ∧ exportId ∈ root.exportContents.names ∧
        exportId ∈ root.exportManifests.names := by
  simp only [Root.exportsPaired, List.all_eq_true, Bool.and_eq_true, decide_eq_true_eq, and_assoc]

/-- The exports of a directory have been listed. -/
structure Lists (sha256 : Text → String) (root : Root)
    (exports : List EventHistoryExportMetadata) : Prop where
  fault : root.fault = none
  paired : root.exportsPaired = true
  reads : ∃ metadatas, List.Forall₂ (ReadsExport sha256 root)
    (sortBy collationKey root.exportManifests.names) metadatas ∧
      exports = sortBy EventHistoryExportMetadata.key metadatas

theorem listExports_eq_ok {exports : List EventHistoryExportMetadata} :
    listExports sha256 (some root) = .ok exports ↔ Lists sha256 root exports := by
  rw [listExports]
  constructor
  · intro h
    cases hfault : root.fault with
    | some code => simp [hfault] at h
    | none =>
        simp only [hfault] at h
        split_ifs at h with hpaired
        rw [Bool.not_eq_true, Bool.not_eq_false'] at hpaired
        obtain ⟨metadatas, hmetadatas, h⟩ := bind_ok.mp h
        obtain rfl := Except.ok.inj h
        exact ⟨hfault, hpaired, metadatas, readExports_eq_ok.mp hmetadatas, rfl⟩
  · intro h
    obtain ⟨metadatas, hmetadatas, rfl⟩ := h.reads
    simp only [h.fault, h.paired, Bool.not_true, Bool.false_eq_true, if_false]
    exact bind_ok.mpr ⟨metadatas, readExports_eq_ok.mpr hmetadatas, rfl⟩

theorem Lists.reads_of_mem {exports : List EventHistoryExportMetadata} (h : Lists sha256 root exports)
    {exportId : String} (hid : exportId ∈ root.exportManifests.names) :
    ∃ metadata, ReadsExport sha256 root exportId metadata := by
  obtain ⟨metadatas, hmetadatas, -⟩ := h.reads
  have hsorted : exportId ∈ sortBy collationKey root.exportManifests.names :=
    (perm_sortBy _).mem_iff.mpr hid
  obtain ⟨i, hi, rfl⟩ := List.mem_iff_getElem.mp hsorted
  have hlength := hmetadatas.length_eq
  exact ⟨metadatas[i], (List.forall₂_iff_get.mp hmetadatas).2 i hi (hlength ▸ hi)⟩

theorem getExport_eq_none {exportId : String} (h : root.exportManifests.get? exportId = none) :
    getExport sha256 (some root) exportId = .ok none := by
  rw [getExport]
  split_ifs
  · rfl
  · simp only [h]

theorem getExport_eq_some {exportId : String} (hid : isSha256 exportId = true)
    {metadata : EventHistoryExportMetadata} (h : ReadsExport sha256 root exportId metadata) :
    getExport sha256 (some root) exportId = .ok (some metadata) := by
  obtain ⟨text, htext, -⟩ := h.manifest
  simp only [getExport, hid, Bool.not_true, Bool.false_eq_true, if_false, htext]
  exact bind_ok.mpr ⟨metadata, (readExportMetadata_eq_ok htext).mpr h, rfl⟩

/-- What is read of an export is its content. -/
theorem readExport_eq_ok {exportId : String} (hid : isSha256 exportId = true)
    {metadata : EventHistoryExportMetadata} (h : ReadsExport sha256 root exportId metadata)
    {content : Text} (hcontent : root.exportContents.get? exportId = some content) :
    readExport sha256 (some root) exportId = .ok content := by
  obtain ⟨stored, hstored, hown, hhash, hbytes⟩ := h.content
  rw [hcontent, Option.some.injEq] at hstored
  refine bind_ok.mpr ⟨some metadata, getExport_eq_some hid h, ?_⟩
  refine readVerifiedExportContent_eq_ok.mpr ⟨hcontent, ?_, ?_, ?_⟩
  · rw [h.ownId, hstored, hown]
  · rw [hhash, hstored, hown]
  · rw [hbytes, hstored]

end Directory

/-! ## The files of the history itself -/

/-- The files of the history itself are the same. -/
structure Root.SameHistory (a b : Root) : Prop where
  fault : a.fault = b.fault
  transaction : a.transaction = b.transaction
  segments : a.segments = b.segments
  manifests : a.manifests = b.manifests
  active : a.active = b.active
  ledger : a.ledger = b.ledger

/-- Both disks have no history, or the same files of one. -/
def SameHistory : Option Root → Option Root → Prop
  | none, none => True
  | some a, some b => a.SameHistory b
  | _, _ => False

theorem SameHistory.refl (disk : Option Root) : SameHistory disk disk := by
  cases disk with
  | none => trivial
  | some root => exact ⟨rfl, rfl, rfl, rfl, rfl, rfl⟩

theorem readRetentionAnchor_congr {a b : Root} (h : a.ledger = b.ledger) :
    readRetentionAnchor sha256 a = readRetentionAnchor sha256 b := by
  rw [readRetentionAnchor, readRetentionAnchor, h]

/-- A history is read from these files. -/
theorem reconstruct_congr {a b : Option Root} (h : SameHistory a b) :
    reconstruct sha256 limits a = reconstruct sha256 limits b := by
  cases a with
  | none =>
      cases b with
      | none => rfl
      | some b => exact h.elim
  | some a =>
      cases b with
      | none => exact h.elim
      | some b =>
          have hsame : a.SameHistory b := h
          have hsegments : ∀ chain names, readSegments sha256 a chain names =
              readSegments sha256 b chain names := fun chain names =>
            readSegments_congr fun name _ => by rw [hsame.segments, hsame.manifests]; exact ⟨rfl, rfl⟩
          simp only [reconstruct, hsame.fault, hsame.transaction, hsame.segments, hsame.manifests,
            hsame.active, readRetentionAnchor_congr hsame.ledger, hsegments, segmentNames]

/-! ## The requests for which there is an export -/

/-- The hash that an export names of the last anchor. -/
def retentionHash (sha256 : Text → String) : Option Root → String
  | none => genesisHash
  | some root =>
    match readRetentionAnchor sha256 root with
    | .ok latest => anchorHash latest
    | .error _ => genesisHash

theorem isSha256_genesisHash : isSha256 genesisHash = true := by decide

theorem isSha256_retentionHash (disk : Option Root) : isSha256 (retentionHash sha256 disk) = true := by
  cases disk with
  | none => exact isSha256_genesisHash
  | some root =>
      rw [retentionHash]
      cases hlatest : readRetentionAnchor sha256 root with
      | error code => exact isSha256_genesisHash
      | ok latest =>
          cases latest with
          | none => exact isSha256_genesisHash
          | some anchor => exact (valid_of_readRetentionAnchor hlatest).retentionRecordSha256

section Prepare

variable {root : Root} {state : Reconstruction} {now : Timestamp} {input : JsValue}

/-- **An export is prepared** for a range that is retained, when it is not too large. -/
theorem prepareExport_eq_ok (h : Reconstructs sha256 limits root state) {content : Text}
    {metadata : EventHistoryExportMetadata} :
    prepareExport sha256 limits now input (some root) = .ok (content, metadata) ↔
      ∃ request, parseExportRequest input = .ok request ∧ Exportable state request ∧
        (exportedEvents state request).length ≤ eventHistoryMaxExportEvents ∧
        content = exportContent sha256
          (exportHeader state request now (retentionHash sha256 (some root))) state
          (exportedEvents state request) ∧
        byteLength content ≤ eventHistoryMaxExportBytes ∧
        metadata = exportMetadata sha256 request (exportedEvents state request).length content now
          (retentionHash sha256 (some root)) := by
  obtain ⟨latest, hlatest, -, hpresent⟩ := h.anchor
  have hread := reconstruct_eq_ok.mpr h
  have hhash : exportAnchorHash sha256 state (some root) = .ok (retentionHash sha256 (some root)) := by
    simp only [exportAnchorHash, retentionHash, hlatest, retentionAnchorHash_eq hlatest, hpresent]
    cases latest <;> rfl
  rw [prepareExport, bind_ok]
  refine exists_congr fun request => and_congr_right fun _ => ?_
  rw [hread]
  simp only [bind, Except.bind, hhash]
  have hout : (decide (request.fromSequence < state.earliestRetainedSequence) ||
      decide (state.latestSequence < request.throughSequence) ||
      decide (request.throughSequence < request.fromSequence)) = true ↔ ¬ Exportable state request := by
    simp only [Exportable, Bool.or_eq_true, decide_eq_true_eq]
    omega
  by_cases hrange : Exportable state request
  · rw [if_neg (hout.not.mpr (not_not.mpr hrange))]
    by_cases hevents : (exportedEvents state request).length ≤ eventHistoryMaxExportEvents
    · rw [if_neg (Nat.not_lt.mpr hevents)]
      split_ifs with hbytes
      · simp only [false_iff]
        intro hall
        obtain ⟨-, -, hcontent, hle, -⟩ := hall
        rw [hcontent] at hle
        omega
      · rw [Except.ok.injEq, Prod.mk.injEq]
        constructor
        · intro hsame
          rw [← hsame.1, ← hsame.2]
          exact ⟨hrange, hevents, rfl, Nat.not_lt.mp hbytes, rfl⟩
        · intro hall
          obtain ⟨-, -, hcontent, -, hmetadata⟩ := hall
          rw [hmetadata, hcontent]
          exact ⟨rfl, rfl⟩
    · rw [if_pos (Nat.lt_of_not_le hevents)]
      simp only [reduceCtorEq, false_iff]
      exact fun hall => hevents hall.2.1
  · rw [if_pos (hout.mpr hrange)]
    simp only [reduceCtorEq, false_iff]
    exact fun hall => hrange hall.1

theorem prepareExport_none {prepared : Text × EventHistoryExportMetadata} :
    prepareExport sha256 limits now input none ≠ .ok prepared := by
  intro h
  obtain ⟨request, -, h⟩ := bind_ok.mp h
  obtain ⟨state, hstate, h⟩ := bind_ok.mp h
  rw [reconstruct, Except.ok.injEq] at hstate
  have hearliest : state.earliestRetainedSequence = 1 := by rw [← hstate]; rfl
  have hlatest : state.latestSequence = 0 := by rw [← hstate]; rfl
  rw [hearliest, hlatest, if_pos] at h
  · cases h
  · simp only [Bool.or_eq_true, decide_eq_true_eq]
    omega

theorem prepareExport_congr {a b : Option Root} (h : SameHistory a b) :
    prepareExport sha256 limits now input a = prepareExport sha256 limits now input b := by
  have hhash : ∀ state, exportAnchorHash sha256 state a = exportAnchorHash sha256 state b := by
    intro state
    cases a with
    | none =>
        cases b with
        | none => rfl
        | some b => exact h.elim
    | some a =>
        cases b with
        | none => exact h.elim
        | some b =>
            have hsame : a.SameHistory b := h
            simp only [exportAnchorHash, retentionAnchorHash, hsame.ledger]
  simp only [prepareExport, reconstruct_congr h, hhash]

theorem Exportable.valid_metadata (hsha256 : ∀ text, isSha256 (sha256 text) = true)
    (h : Reconstructs sha256 limits root state) {request : EventHistoryExportRequest}
    (hrange : Exportable state request)
    (hevents : (exportedEvents state request).length ≤ eventHistoryMaxExportEvents) {content : Text}
    (hbytes : byteLength content ≤ eventHistoryMaxExportBytes) {hash : String}
    (hhash : isSha256 hash = true) :
    (exportMetadata sha256 request (exportedEvents state request).length content now hash).Valid := by
  have hlatest := h.latest_lt hrange
  have hpos := h.start_pos
  rw [← h.earliest_eq] at hpos
  obtain ⟨hfirst, hle, hlast⟩ := hrange
  rw [eventHistoryMaxExportEvents] at hevents
  rw [eventHistoryMaxExportBytes] at hbytes
  refine ⟨hsha256 _, ⟨?_, ?_⟩, ⟨?_, ?_⟩, hle, ?_, ?_, hsha256 _, hhash⟩
  · exact hpos.trans hfirst
  · show request.fromSequence < 2 ^ 53
    omega
  · exact (hpos.trans hfirst).trans hle
  · show request.throughSequence < 2 ^ 53
    omega
  · show (exportedEvents state request).length < 2 ^ 53
    omega
  · show byteLength content < 2 ^ 53
    omega

end Prepare

/-! ## Creating an export -/

section Create

variable {root : Root} {now : Timestamp} {input : JsValue}

/-- An export that has been written is read as it was written. -/
theorem readsExport_written {content : Text} {metadata : EventHistoryExportMetadata}
    (hvalid : metadata.Valid) (hown : sha256 content = metadata.exportId)
    (hcontent : metadata.contentSha256 = metadata.exportId)
    (hbytes : metadata.byteCount = byteLength content) :
    ReadsExport sha256 (root.writeExport content metadata) metadata.exportId metadata where
  manifest := by
    refine ⟨jsonLine metadata.fields, ?_, parseExportMetadata_written hvalid⟩
    rw [Root.writeExport, Lib.Directory.get?_write, if_pos rfl]
  ownId := rfl
  content := by
    refine ⟨content, ?_, hown, hcontent, hbytes⟩
    rw [Root.writeExport, Lib.Directory.get?_write, if_pos rfl]

/-- Another export stays as it is when one is written. -/
theorem ReadsExport.write {root : Root} {exportId : String} {metadata other : EventHistoryExportMetadata}
    {content : Text} (h : ReadsExport sha256 root exportId metadata) (hne : exportId ≠ other.exportId) :
    ReadsExport sha256 (root.writeExport content other) exportId metadata where
  manifest := by
    obtain ⟨text, htext, hread⟩ := h.manifest
    refine ⟨text, ?_, hread⟩
    rw [Root.writeExport, Lib.Directory.get?_write, if_neg hne, htext]
  ownId := h.ownId
  content := by
    obtain ⟨stored, hstored, hverified⟩ := h.content
    refine ⟨stored, ?_, hverified⟩
    rw [Root.writeExport, Lib.Directory.get?_write, if_neg hne, hstored]

theorem exists_forall₂ {α β : Type} {R : α → β → Prop} {items : List α}
    (h : ∀ item ∈ items, ∃ other, R item other) : ∃ others, List.Forall₂ R items others := by
  induction items with
  | nil => exact ⟨[], .nil⟩
  | cons item items ih =>
      rw [List.forall_mem_cons] at h
      obtain ⟨other, hother⟩ := h.1
      obtain ⟨others, hothers⟩ := ih h.2
      exact ⟨other :: others, .cons hother hothers⟩

/-- Exports are listed with a further one. -/
theorem Lists.write {root : Root} {exports : List EventHistoryExportMetadata}
    (h : Lists sha256 root exports) {content : Text} {metadata : EventHistoryExportMetadata}
    (hid : isSha256 metadata.exportId = true)
    (hwritten : ReadsExport sha256 (root.writeExport content metadata) metadata.exportId metadata) :
    ∃ exports', Lists sha256 (root.writeExport content metadata) exports' := by
  have hpaired := exportsPaired_iff.mp h.paired
  have hreads : ∀ exportId ∈ sortBy collationKey (root.writeExport content metadata).exportManifests.names,
      ∃ other, ReadsExport sha256 (root.writeExport content metadata) exportId other := by
    intro exportId hmem
    rw [(perm_sortBy _).mem_iff, Root.writeExport, Lib.Directory.mem_names_write] at hmem
    by_cases hsame : exportId = metadata.exportId
    · rw [hsame]
      exact ⟨metadata, hwritten⟩
    · obtain ⟨other, hother⟩ := h.reads_of_mem (hmem.resolve_left hsame)
      exact ⟨other, hother.write hsame⟩
  obtain ⟨metadatas, hmetadatas⟩ := exists_forall₂ hreads
  refine ⟨_, h.fault, exportsPaired_iff.mpr fun exportId hmem => ?_, metadatas, hmetadatas, rfl⟩
  simp only [Root.writeExport, List.mem_append, Lib.Directory.mem_names_write] at hmem ⊢
  by_cases hsame : exportId = metadata.exportId
  · rw [hsame]
    exact ⟨hid, .inl rfl, .inl rfl⟩
  · have hold : exportId ∈ root.exportContents.names ++ root.exportManifests.names := by
      rw [List.mem_append]
      simpa [hsame] using hmem
    obtain ⟨hhex, hcontent, hmanifest⟩ := hpaired exportId hold
    exact ⟨hhex, .inr hcontent, .inr hmanifest⟩

theorem createExport_error {disk : Option Root} {code : HistoryError}
    (h : prepareExport sha256 limits now input disk = .error code) :
    createExport sha256 limits now input disk = (.error code, disk) := by
  simp only [createExport, h]

theorem createExport_existing {content : Text} {metadata existing : EventHistoryExportMetadata}
    (h : prepareExport sha256 limits now input (some root) = .ok (content, metadata))
    (hid : isSha256 metadata.exportId = true)
    (hexisting : ReadsExport sha256 root metadata.exportId existing) :
    createExport sha256 limits now input (some root) = (.ok ⟨.unchanged, existing⟩, some root) := by
  simp only [createExport, h, getExport_eq_some hid hexisting]

theorem createExport_new {content : Text} {metadata : EventHistoryExportMetadata}
    (h : prepareExport sha256 limits now input (some root) = .ok (content, metadata))
    (hnew : root.exportManifests.get? metadata.exportId = none) :
    createExport sha256 limits now input (some root) =
      (.ok ⟨.created, metadata⟩, some (root.writeExport content metadata)) := by
  simp only [createExport, h, getExport_eq_none hnew, Option.map_some]

/-- An export that is prepared is there already, or it is written. -/
theorem createExport_of_prepared {exports : List EventHistoryExportMetadata}
    (hlists : Lists sha256 root exports) {content : Text} {metadata : EventHistoryExportMetadata}
    (h : prepareExport sha256 limits now input (some root) = .ok (content, metadata))
    (hid : isSha256 metadata.exportId = true) :
    (∃ existing, ReadsExport sha256 root metadata.exportId existing ∧
      createExport sha256 limits now input (some root) = (.ok ⟨.unchanged, existing⟩, some root)) ∨
    createExport sha256 limits now input (some root) =
      (.ok ⟨.created, metadata⟩, some (root.writeExport content metadata)) := by
  cases hmanifest : root.exportManifests.get? metadata.exportId with
  | none => exact .inr (createExport_new h hmanifest)
  | some text =>
      obtain ⟨existing, hexisting⟩ :=
        hlists.reads_of_mem (Lib.Directory.mem_names.mpr ⟨text, hmanifest⟩)
      exact .inl ⟨existing, hexisting, createExport_existing h hid hexisting⟩

theorem createExport_ok {disk disk' : Option Root} {result : EventHistoryExportResult}
    (h : createExport sha256 limits now input disk = (.ok result, disk')) :
    ∃ prepared, prepareExport sha256 limits now input disk = .ok prepared := by
  cases hprepared : prepareExport sha256 limits now input disk with
  | error code =>
      rw [createExport_error hprepared] at h
      cases h
  | ok prepared => exact ⟨prepared, rfl⟩

theorem sameHistory_createExport (disk : Option Root) :
    SameHistory (createExport sha256 limits now input disk).2 disk := by
  rw [createExport]
  split
  · exact .refl disk
  · split
    · exact .refl disk
    · exact .refl disk
    · cases disk with
      | none => trivial
      | some root => exact ⟨rfl, rfl, rfl, rfl, rfl, rfl⟩

theorem sameHistory_pruneExports (disk : Option Root) :
    SameHistory (pruneExports sha256 limits now disk).2 disk := by
  rw [pruneExports]
  split
  · exact .refl disk
  · split
    · exact .refl disk
    · cases disk with
      | none => trivial
      | some root => exact ⟨rfl, rfl, rfl, rfl, rfl, rfl⟩

end Create

/-- The export that is made, and a stored one of the same digest, are the same. -/
def NoCollision (sha256 : Text → String) (limits : HistoryLimits) (now : Timestamp) (input : JsValue)
    (disk : Option Root) : Prop :=
  ∀ root content metadata stored, disk = some root →
    prepareExport sha256 limits now input disk = .ok (content, metadata) →
    root.exportContents.get? metadata.exportId = some stored → sha256 stored = sha256 content →
    stored = content

section Consistent

variable {root : Root} {state : Reconstruction} {exports : List EventHistoryExportMetadata}
  {now : Timestamp} {input : JsValue} (hsha256 : ∀ text, isSha256 (sha256 text) = true)
  (hreads : Reconstructs sha256 limits root state) (hlists : Lists sha256 root exports)

include hsha256 hreads hlists

/-- **A request succeeds** where there is an export within the limits. -/
theorem createExport_isOk_iff :
    (∃ result, (createExport sha256 limits now input (some root)).1 = .ok result) ↔
      ∃ request content, parseExportRequest input = .ok request ∧ Exportable state request ∧
        IsExport sha256 state request now (retentionHash sha256 (some root)) content ∧
        request.throughSequence + 1 - request.fromSequence ≤ eventHistoryMaxExportEvents ∧
        byteLength content ≤ eventHistoryMaxExportBytes := by
  constructor
  · intro h
    obtain ⟨result, hresult⟩ := h
    obtain ⟨prepared, hprepared⟩ := createExport_ok (Prod.ext hresult rfl)
    obtain ⟨request, hrequest, hrange, hevents, hcontent, hbytes, -⟩ :=
      (prepareExport_eq_ok hreads).mp hprepared
    rw [hreads.length_exportedEvents hrange] at hevents
    exact ⟨request, prepared.1, hrequest, hrange,
      (isExport_iff hsha256 hreads hrange (isSha256_retentionHash _)).mpr hcontent, hevents, hbytes⟩
  · intro h
    obtain ⟨request, content, hrequest, hrange, hexport, hevents, hbytes⟩ := h
    have hcontent := (isExport_iff hsha256 hreads hrange (isSha256_retentionHash _)).mp hexport
    rw [← hreads.length_exportedEvents hrange] at hevents
    have hprepared : prepareExport sha256 limits now input (some root) = .ok (content, _) :=
      (prepareExport_eq_ok hreads).mpr ⟨request, hrequest, hrange, hevents, hcontent, hbytes, rfl⟩
    cases createExport_of_prepared hlists hprepared (hsha256 content) with
    | inl hexisting =>
        obtain ⟨existing, -, hcreate⟩ := hexisting
        exact ⟨_, congrArg Prod.fst hcreate⟩
    | inr hcreate => exact ⟨_, congrArg Prod.fst hcreate⟩

omit hlists in
/-- An export that has been prepared is read once it has been written. -/
theorem readsExport_prepared {content : Text} {metadata : EventHistoryExportMetadata}
    (h : prepareExport sha256 limits now input (some root) = .ok (content, metadata)) :
    metadata.exportId = sha256 content ∧ isSha256 metadata.exportId = true ∧
      ReadsExport sha256 (root.writeExport content metadata) metadata.exportId metadata := by
  obtain ⟨request, -, hrange, hevents, -, hbytes, hmetadata⟩ := (prepareExport_eq_ok hreads).mp h
  have hid : metadata.exportId = sha256 content := by rw [hmetadata]; rfl
  have hvalid : metadata.Valid := by
    rw [hmetadata]
    exact hrange.valid_metadata hsha256 hreads hevents hbytes (isSha256_retentionHash _)
  refine ⟨hid, hvalid.exportId, readsExport_written hvalid hid.symm ?_ ?_⟩
  · rw [hmetadata]
    rfl
  · rw [hmetadata]
    rfl

/-- **What is read of an export** are the lines of the range that was asked for. -/
theorem readExport_createExport (hfree : NoCollision sha256 limits now input (some root))
    {result : EventHistoryExportResult} {disk : Option Root}
    (h : createExport sha256 limits now input (some root) = (.ok result, disk)) :
    ∃ request content, parseExportRequest input = .ok request ∧
      IsExport sha256 state request now (retentionHash sha256 (some root)) content ∧
      readExport sha256 disk result.metadata.exportId = .ok content := by
  obtain ⟨⟨content, metadata⟩, hprepared⟩ := createExport_ok h
  obtain ⟨request, hrequest, hrange, -, hcontent, -, -⟩ := (prepareExport_eq_ok hreads).mp hprepared
  have hexport := (isExport_iff hsha256 hreads hrange (isSha256_retentionHash _)).mpr hcontent
  obtain ⟨hid, hhex, hwritten⟩ := readsExport_prepared hsha256 hreads hprepared
  refine ⟨request, content, hrequest, hexport, ?_⟩
  cases createExport_of_prepared hlists hprepared hhex with
  | inl hexisting =>
      obtain ⟨existing, hstored, hcreate⟩ := hexisting
      rw [hcreate, Prod.mk.injEq, Except.ok.injEq] at h
      obtain ⟨stored, hget, hown, -, -⟩ := hstored.content
      have hsame := hfree root content metadata stored rfl hprepared hget (by rw [hown, hid])
      rw [hsame] at hget
      rw [← h.1, ← h.2]
      show readExport sha256 (some root) existing.exportId = _
      rw [hstored.ownId]
      exact readExport_eq_ok hhex hstored hget
  | inr hcreate =>
      rw [hcreate, Prod.mk.injEq, Except.ok.injEq] at h
      rw [← h.1, ← h.2]
      refine readExport_eq_ok hhex hwritten ?_
      rw [Root.writeExport, Lib.Directory.get?_write, if_pos rfl]

/-- **The same request** finds the export again. -/
theorem createExport_again {result : EventHistoryExportResult} {disk : Option Root}
    (h : createExport sha256 limits now input (some root) = (.ok result, disk)) :
    createExport sha256 limits now input disk = (.ok ⟨.unchanged, result.metadata⟩, disk) := by
  obtain ⟨⟨content, metadata⟩, hprepared⟩ := createExport_ok h
  obtain ⟨-, hhex, hwritten⟩ := readsExport_prepared hsha256 hreads hprepared
  cases createExport_of_prepared hlists hprepared hhex with
  | inl hexisting =>
      obtain ⟨existing, -, hcreate⟩ := hexisting
      have hsame := hcreate
      rw [h, Prod.mk.injEq, Except.ok.injEq] at hsame
      rw [hsame.1, hsame.2]
      exact hcreate
  | inr hcreate =>
      have hkeeps : SameHistory (createExport sha256 limits now input (some root)).2 (some root) :=
        sameHistory_createExport _
      rw [hcreate] at hkeeps h
      rw [Prod.mk.injEq, Except.ok.injEq] at h
      rw [← prepareExport_congr hkeeps] at hprepared
      rw [← h.1, ← h.2]
      exact createExport_existing hprepared hhex hwritten

end Consistent

/-- A history whose files and exports can be read. -/
structure ConsistentHistory (sha256 : Text → String) (limits : HistoryLimits) where
  disk : Option Root
  state : Reconstruction
  exports : List EventHistoryExportMetadata
  reads : reconstruct sha256 limits disk = .ok state
  lists : listExports sha256 disk = .ok exports

/-- What exports of a history do. -/
structure ExportsRange (sha256 : Text → String) (limits : HistoryLimits)
    (history : ConsistentHistory sha256 limits) (now : Timestamp) (input : JsValue) : Prop where
  succeeds_iff : (∃ result, (createExport sha256 limits now input history.disk).1 = .ok result) ↔
    ∃ request content, parseExportRequest input = .ok request ∧ Exportable history.state request ∧
      IsExport sha256 history.state request now (retentionHash sha256 history.disk) content ∧
      request.throughSequence + 1 - request.fromSequence ≤ eventHistoryMaxExportEvents ∧
      byteLength content ≤ eventHistoryMaxExportBytes
  reads : ∀ result disk, createExport sha256 limits now input history.disk = (.ok result, disk) →
    ∃ request content, parseExportRequest input = .ok request ∧
      IsExport sha256 history.state request now (retentionHash sha256 history.disk) content ∧
      readExport sha256 disk result.metadata.exportId = .ok content
  again : ∀ result disk, createExport sha256 limits now input history.disk = (.ok result, disk) →
    createExport sha256 limits now input disk = (.ok ⟨.unchanged, result.metadata⟩, disk)
  created : SameHistory (createExport sha256 limits now input history.disk).2 history.disk ∧
    reconstruct sha256 limits (createExport sha256 limits now input history.disk).2 =
      .ok history.state
  pruned : SameHistory (pruneExports sha256 limits now history.disk).2 history.disk ∧
    reconstruct sha256 limits (pruneExports sha256 limits now history.disk).2 = .ok history.state

theorem createExport_none {now : Timestamp} {input : JsValue} {result : EventHistoryExportResult} :
    (createExport sha256 limits now input none).1 ≠ .ok result := by
  intro h
  obtain ⟨prepared, hprepared⟩ := createExport_ok (Prod.ext h rfl)
  exact prepareExport_none hprepared

/-- **An export is created** exactly for a range that is retained and not too large.  What is read of
it are the lines of this range, the same request finds it again, and the history stays as it is. -/
theorem exportsRange (hsha256 : ∀ text, isSha256 (sha256 text) = true)
    (history : ConsistentHistory sha256 limits) (now : Timestamp) (input : JsValue)
    (hfree : NoCollision sha256 limits now input history.disk) :
    ExportsRange sha256 limits history now input := by
  obtain ⟨disk, state, exports, hread, hlist⟩ := history
  have hcreated : SameHistory (createExport sha256 limits now input disk).2 disk :=
    sameHistory_createExport disk
  have hpruned : SameHistory (pruneExports sha256 limits now disk).2 disk :=
    sameHistory_pruneExports disk
  cases disk with
  | none =>
      -- without a history no range is retained
      rw [reconstruct, Except.ok.injEq] at hread
      have hempty : ∀ request, ¬ Exportable state request := by
        rintro request ⟨hfirst, hle, hlast⟩
        rw [← hread] at hfirst hlast
        have hearliest : Reconstruction.empty.earliestRetainedSequence = 1 := rfl
        have hlatest : Reconstruction.empty.latestSequence = 0 := rfl
        omega
      exact {
        succeeds_iff := by
          constructor
          · intro h
            obtain ⟨result, hresult⟩ := h
            exact absurd hresult createExport_none
          · intro h
            obtain ⟨request, content, -, hrange, -⟩ := h
            exact absurd hrange (hempty request)
        reads := fun _ _ h => absurd (congrArg Prod.fst h) createExport_none
        again := fun _ _ h => absurd (congrArg Prod.fst h) createExport_none
        created := ⟨hcreated, (reconstruct_congr hcreated).trans (by rw [reconstruct, hread])⟩
        pruned := ⟨hpruned, (reconstruct_congr hpruned).trans (by rw [reconstruct, hread])⟩ }
  | some root =>
      have hreads := reconstruct_eq_ok.mp hread
      have hlists := listExports_eq_ok.mp hlist
      exact {
        succeeds_iff := createExport_isOk_iff hsha256 hreads hlists
        reads := fun _ _ h => readExport_createExport hsha256 hreads hlists hfree h
        again := fun _ _ h => createExport_again hsha256 hreads hlists h
        created := ⟨hcreated, (reconstruct_congr hcreated).trans hread⟩
        pruned := ⟨hpruned, (reconstruct_congr hpruned).trans hread⟩ }

/-! ### The export of one event -/

def exportInstant : Timestamp := ⟨1767312000000, by decide⟩

/-- The bytes of a code point. -/
def utf8CodePoint (n : Nat) : List UInt8 :=
  if n < 0x80 then [.ofNat n]
  else if n < 0x800 then [.ofNat (0xC0 + n / 0x40), .ofNat (0x80 + n % 0x40)]
  else if n < 0x10000 then
    [.ofNat (0xE0 + n / 0x1000), .ofNat (0x80 + n / 0x40 % 0x40), .ofNat (0x80 + n % 0x40)]
  else
    [.ofNat (0xF0 + n / 0x40000), .ofNat (0x80 + n / 0x1000 % 0x40), .ofNat (0x80 + n / 0x40 % 0x40),
      .ofNat (0x80 + n % 0x40)]

/-- A code unit on its own; half of a pair is replaced. -/
def utf8Unit (c : CodeUnit) : List UInt8 :=
  utf8CodePoint (if isLeadingSurrogate c || isTrailingSurrogate c then 0xFFFD else c.toNat)

/-- `Buffer.from(text, "utf8")`. -/
def utf8 : Text → List UInt8
  | [] => []
  | [c] => utf8Unit c
  | c :: d :: rest =>
    if isLeadingSurrogate c && isTrailingSurrogate d then
      utf8CodePoint (0x10000 + (c.toNat - 0xD800) * 0x400 + (d.toNat - 0xDC00)) ++ utf8 rest
    else utf8Unit c ++ utf8 (d :: rest)

/-- `createHash("sha256").update(text, "utf8").digest("hex")`. -/
def textDigest (text : Text) : String := .ofList (Sha256.hexDigest (utf8 text))

theorem isSha256_textDigest (text : Text) : isSha256 (textDigest text) = true := by
  rw [isSha256, matchesClasses, textDigest, String.toList_ofList, Sha256.length_hexDigest,
    Bool.and_eq_true, List.all_eq_true]
  refine ⟨by decide, fun p hp => ?_⟩
  obtain ⟨hclass, hc⟩ := List.of_mem_zip hp
  obtain ⟨n, hn, hdigit⟩ := Sha256.digit_of_mem_hexDigest hc
  have hall : ∀ n < 16, isHexDigit (Nat.digitChar n) = true := by decide
  rw [(List.mem_replicate.mp hclass).2, hdigit]
  exact hall n hn

def wakeAlarmRecord : EventHistoryRecord :=
  ⟨1, wakeAlarmCancelled, genesisHash,
    "600e37e6c52b66002b6ce9b072acd5b3e2285bb4282f16eeded4ff4d5045cef7"⟩

theorem textDigest_wakeAlarmRecord : textDigest (serializeEventHistoryRecordForHash wakeAlarmRecord) =
    "600e37e6c52b66002b6ce9b072acd5b3e2285bb4282f16eeded4ff4d5045cef7" := by
  decide +kernel

theorem valid_wakeAlarmRecord : wakeAlarmRecord.Valid textDigest where
  checked := checked_wakeAlarmCancelled
  sequence := rfl
  previousRecordSha256 := isSha256_genesisHash
  recordSha256 := by decide
  hash := by
    rw [textDigest_wakeAlarmRecord]
    rfl

/-- One record in the active segment. -/
def wakeAlarmRoot : Root where
  violation := none
  bare := false
  transaction := false
  segments := .empty _ _
  manifests := .empty _ _
  active := some (serializeEventHistoryRecord wakeAlarmRecord)
  ledger := none
  policy := none
  exportContents := .empty _ _
  exportManifests := .empty _ _

def defaultLimits : HistoryLimits := ⟨10000, 16 * 1024 * 1024, none⟩

theorem byteLength_wakeAlarmRecord : byteLength (serializeEventHistoryRecord wakeAlarmRecord) = 521 := by
  decide +kernel

theorem reads_wakeAlarmRoot : ∃ read : EventHistoryRecord, read.Same wakeAlarmRecord ∧
    read.sequence = 1 ∧
    Reconstructs textDigest defaultLimits wakeAlarmRoot ⟨.genesis, [], [read], false⟩ := by
  have hlength := byteLength_wakeAlarmRecord
  obtain ⟨read, hread, hsame, hsequence, hprevious⟩ :=
    parseRecords_serialize valid_wakeAlarmRecord (by rw [hlength]; decide)
  exact ⟨read, hsame, hsequence, {
    fault := rfl
    transaction := rfl
    wellFormed := rfl
    anchor := ⟨none, rfl, rfl, rfl⟩
    segments := rfl
    active := hread
    activeEvents := by
      show 1 ≤ 10000
      decide
    activeBytes := hlength.trans_le (by decide)
    follows := by
      rw [follows, hsequence, hprevious]
      rfl }⟩

end AtlasManager.EventHistory
