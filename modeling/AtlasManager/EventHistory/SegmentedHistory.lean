import AtlasManager.EventHistory.RetentionRecords
import AtlasManager.Backup.BackupManifest
import AtlasManager.Lib.Directory

/-!
# AtlasManager.EventHistory.SegmentedHistory

The event history in files: sealed segments with their manifests, the active segment, the ledger of
removed segments, and exports.

* `reconstruct` -- the history, as it is read from its files;
* `pruneSegments`, `pruneExports` -- what a retention policy removes;
* `listExports`, `createExport`, `readExport` -- exports of a range of events.
-/

namespace AtlasManager.EventHistory

open AtlasManager.Lib AtlasManager.Lib.Rfc8259 AtlasManager.Backup

/-- The longest line of a record, with its line feed. -/
def eventHistoryMaxRecordBytes : Nat := 64 * 1024

/-- The most events of one export. -/
def eventHistoryMaxExportEvents : Nat := 100000

/-- The largest file of an export. -/
def eventHistoryMaxExportBytes : Nat := 128 * 1024 * 1024

/-! ## The files -/

/-- The name of a segment, with two numerals of twenty digits. -/
structure SegmentName where
  first : Nat
  last : Nat
  deriving DecidableEq

/-- Numerals of one length are ordered as texts like their numbers, so the names of files are, too. -/
def SegmentName.key (name : SegmentName) : Nat ×ₗ Nat := toLex (name.first, name.last)

/-- More than twenty digits make no name of a segment. -/
def SegmentName.isWellFormed (name : SegmentName) : Bool :=
  name.first < 10 ^ 20 && name.last < 10 ^ 20

/-- A byte order mark in front of a text. -/
def byteOrderMark : CodeUnit := 0xFEFF

/-- `new TextDecoder("utf-8", { fatal: true }).decode`: one byte order mark in front is dropped.

The content of a file is the text of its bytes, where a mark is a unit like any other; so its length
in bytes and its digest count it.  `toString("utf8")`, with which the other files are read, leaves it
in the text. -/
def decodeUtf8 (content : Text) : Text :=
  if content.head? = some byteOrderMark then content.tail else content

/-- Without a mark in front nothing is dropped. -/
theorem decodeUtf8_of_head? {content : Text} (h : content.head? ≠ some byteOrderMark) :
    decodeUtf8 content = content := if_neg h

/-- Only one mark is dropped. -/
theorem decodeUtf8_mark (text : Text) : decodeUtf8 (byteOrderMark :: text) = text := if_pos rfl

/-- A content is its text, or a mark and its text. -/
theorem decodeUtf8_eq_iff {content text : Text} :
    decodeUtf8 content = text ↔
      content = byteOrderMark :: text ∨ content = text ∧ text.head? ≠ some byteOrderMark := by
  constructor
  · intro h
    by_cases hmark : content.head? = some byteOrderMark
    · obtain ⟨rest, rfl⟩ := List.head?_eq_some_iff.mp hmark
      rw [decodeUtf8_mark] at h
      exact .inl (by rw [h])
    · rw [decodeUtf8_of_head? hmark] at h
      rw [h] at hmark
      exact .inr ⟨h, hmark⟩
  · rintro (rfl | ⟨rfl, hmark⟩)
    · exact decodeUtf8_mark text
    · exact decodeUtf8_of_head? hmark

/-- A mark in front does not change the end. -/
theorem getLast?_decodeUtf8 {content : Text} {c : CodeUnit} (hc : c ≠ byteOrderMark) :
    (decodeUtf8 content).getLast? = some c ↔ content.getLast? = some c := by
  rcases decodeUtf8_eq_iff.mp (Eq.refl (decodeUtf8 content)) with hmarked | ⟨hplain, -⟩
  · rw [hmarked, decodeUtf8_mark, List.getLast?_cons]
    cases (decodeUtf8 content).getLast? with
    | none => simpa using Ne.symm hc
    | some d => simp
  · rw [← hplain]

/-- What is written behind a content is read behind its text. -/
theorem decodeUtf8_append {content : Text} (h : content ≠ []) (behind : Text) :
    decodeUtf8 (content ++ behind) = decodeUtf8 content ++ behind := by
  obtain ⟨c, rest, rfl⟩ := List.exists_cons_of_ne_nil h
  by_cases hmark : c = byteOrderMark
  · rw [hmark, List.cons_append, decodeUtf8_mark, decodeUtf8_mark]
  · have hhead : ∀ rest : Text, (c :: rest).head? ≠ some byteOrderMark := by simpa using hmark
    rw [List.cons_append, decodeUtf8_of_head? (hhead _), decodeUtf8_of_head? (hhead _), List.cons_append]

/-- The files of a history.  `violation` is what `validateExistingRoot` finds wrong with what is there,
`bare` tells if the directories `segments` and `exports` are missing, and `transaction` if
`transaction.json` is there. -/
structure Root where
  violation : Option HistoryError
  bare : Bool
  transaction : Bool
  segments : Directory SegmentName Text
  manifests : Directory SegmentName Text
  active : Option Text
  ledger : Option Text
  policy : Option Text
  exportContents : Directory String Text
  exportManifests : Directory String Text

/-- `validateExistingRoot` -/
def Root.fault (root : Root) : Option HistoryError :=
  root.violation.or (if root.bare then some .corrupted else none)

theorem Root.fault_eq_none {root : Root} :
    root.fault = none ↔ root.violation = none ∧ root.bare = false := by
  cases hbare : root.bare <;> simp [Root.fault, hbare]

/-- What the history is configured with. -/
structure HistoryLimits where
  maxSegmentEvents : Nat
  maxSegmentBytes : Nat
  initialRetentionPolicy : Option EventHistoryRetentionPolicy

/-! ## Reading the history -/

/-- What the next segment has to follow. -/
structure Chain where
  expectedSequence : Nat
  previousRecord : String
  previousSegment : String
  deriving DecidableEq

/-- Nothing stands before the first record of all. -/
def Chain.genesis : Chain := ⟨1, genesisHash, genesisHash⟩

/-- What follows a segment with this manifest. -/
def Chain.after (manifest : EventHistorySegmentManifest) : Chain :=
  ⟨manifest.lastSequence + 1, manifest.lastRecordSha256, manifest.manifestSha256⟩

/-- A sealed segment that has been read. -/
structure SealedSegment where
  name : SegmentName
  manifest : EventHistorySegmentManifest
  records : List EventHistoryRecord
  deriving DecidableEq

/-- What follows segments that follow a chain. -/
def Chain.behind (chain : Chain) (segments : List SealedSegment) : Chain :=
  match segments.getLast? with
  | some segment => .after segment.manifest
  | none => chain

/-- A history that has been read.  `start` is what its first segment follows. -/
structure Reconstruction where
  start : Chain
  sealed : List SealedSegment
  activeRecords : List EventHistoryRecord
  retentionAnchorPresent : Bool
  deriving DecidableEq

namespace Reconstruction

/-- The history of a directory that is missing. -/
def empty : Reconstruction := ⟨.genesis, [], [], false⟩

/-- All retained records, oldest first. -/
def records (state : Reconstruction) : List EventHistoryRecord :=
  state.sealed.flatMap SealedSegment.records ++ state.activeRecords

/-- The events of the retained records. -/
def events (state : Reconstruction) : List AdministrativeEvent :=
  state.records.map EventHistoryRecord.event

/-- What the active segment follows. -/
def chain (state : Reconstruction) : Chain := state.start.behind state.sealed

/-- Without records, the number that the next one will get. -/
def earliestRetainedSequence (state : Reconstruction) : Nat :=
  match state.records.head? with
  | some record => record.sequence
  | none => state.chain.expectedSequence

/-- Without records, the number before the one that the next record will get. -/
def latestSequence (state : Reconstruction) : Nat :=
  match state.records.getLast? with
  | some record => record.sequence
  | none => state.chain.expectedSequence - 1

/-- The hash that the next record will name as the one before it. -/
def lastRecordSha256 (state : Reconstruction) : String :=
  match state.records.getLast? with
  | some record => record.recordSha256
  | none => state.chain.previousRecord

/-- The hash that the next manifest will name as the one before it. -/
def lastSegmentSha256 (state : Reconstruction) : String := state.chain.previousSegment

end Reconstruction

section History

/- `sha256` gives the hexadecimal digest of the bytes of a text. -/
variable (sha256 : Text → String)

/-- The loop over the lines.  The first record of a segment may have any number here; it is compared
with the chain by the caller. -/
def parseRecordLines : String → Nat → List Text → Except HistoryError (List EventHistoryRecord)
  | _, _, [] => .ok []
  | previous, previousSequence, line :: rest =>
    if eventHistoryMaxRecordBytes < byteLength (line ++ [0x0A]) then .error .capacityExceeded
    else
      match parseEventHistoryRecordLine sha256 (line ++ [0x0A]) with
      | .error _ => .error .corrupted
      | .ok record =>
        if record.previousRecordSha256 ≠ previous ∨
            0 < previousSequence ∧ record.sequence ≠ previousSequence + 1 then
          .error .corrupted
        else do
          let records ← parseRecordLines record.recordSha256 record.sequence rest
          return record :: records

/-- The records of a segment.  A segment of a mark alone has no end of a line. -/
def parseRecords (bytes : Text) (initialPrevious : String) :
    Except HistoryError (List EventHistoryRecord) :=
  if bytes = [] then .ok []
  else
    let text := decodeUtf8 bytes
    if text.getLast? ≠ some 0x0A || 0x0D ∈ text then .error .corrupted
    else parseRecordLines sha256 initialPrevious 0 (text.splitOn 0x0A).dropLast

/-- Does a segment follow the chain, and is its manifest about it? -/
def agrees (chain : Chain) (bytes : Text) (manifest : EventHistorySegmentManifest)
    (records : List EventHistoryRecord) : Bool :=
  match records.head?, records.getLast? with
  | some first, some last =>
    first.sequence = chain.expectedSequence &&
      first.previousRecordSha256 = chain.previousRecord &&
      manifest.segmentContentSha256 = sha256 bytes && manifest.byteCount = byteLength bytes &&
      manifest.previousSegmentSha256 = chain.previousSegment &&
      manifest.firstSequence = first.sequence && manifest.lastSequence = last.sequence &&
      manifest.eventCount = records.length && manifest.lastRecordSha256 = last.recordSha256
  | _, _ => false

/-- A sealed segment with its manifest, behind the segments that were read before. -/
def readSegment (root : Root) (chain : Chain) (name : SegmentName) :
    Except HistoryError SealedSegment :=
  match root.segments.get? name, root.manifests.get? name with
  | some bytes, some text => do
    let manifest ← decode text >>= parseSegmentManifest sha256
    let records ← parseRecords sha256 bytes chain.previousRecord
    if !agrees sha256 chain bytes manifest records then .error .corrupted
    else if name ≠ ⟨manifest.firstSequence, manifest.lastSequence⟩ then .error .corrupted
    else .ok { name, manifest, records }
  | _, _ => .error .corrupted

/-- The loop over the names; each segment is what the next one has to follow. -/
def readSegments (root : Root) : Chain → List SegmentName → Except HistoryError (List SealedSegment)
  | _, [] => .ok []
  | chain, name :: names => do
    let segment ← readSegment sha256 root chain name
    let segments ← readSegments root (.after segment.manifest) names
    return segment :: segments

/-! ## The ledger -/

/-- A line of the ledger.  What is wrong with it is not told apart. -/
def readAnchor (line : Text) : Except HistoryError EventHistoryRetentionAnchor :=
  match decode line >>= parseRetentionAnchor sha256 with
  | .error _ => .error .corrupted
  | .ok anchor => .ok anchor

/-- The lines of the ledger are chained like the records are. -/
def readAnchors : String → List Text → Except HistoryError (List EventHistoryRetentionAnchor)
  | _, [] => .ok []
  | previous, line :: rest => do
    let anchor ← readAnchor sha256 line
    if anchor.previousRetentionRecordSha256 ≠ previous then .error .corrupted
    else do
      let anchors ← readAnchors anchor.retentionRecordSha256 rest
      return anchor :: anchors

/-- The last anchor says where the retained history starts. -/
def readRetentionAnchor (root : Root) : Except HistoryError (Option EventHistoryRetentionAnchor) :=
  match root.ledger with
  | none => .ok none
  | some text => do
    let anchors ← readAnchors sha256 genesisHash (lines 0x0A text)
    return anchors.getLast?

/-- The hash of the last anchor in the ledger.  A prune and an export read it in the same way. -/
def retentionAnchorHash (root : Root) : Except HistoryError String :=
  match root.ledger.bind fun text => (lines 0x0A text).getLast? with
  | none => .ok genesisHash
  | some line => do
    let anchor ← readAnchor sha256 line
    return anchor.retentionRecordSha256

/-- What the first retained segment has to follow. -/
def Chain.ofAnchor : Option EventHistoryRetentionAnchor → Chain
  | none => .genesis
  | some anchor =>
    ⟨anchor.nextRetainedSequence, anchor.nextRetainedPreviousRecordSha256, anchor.removedSegmentChainHead⟩

/-! ## The whole history -/

variable (limits : HistoryLimits)

/-- The segments in the order of their names. -/
def segmentNames (root : Root) : List SegmentName := sortBy SegmentName.key root.segments.names

/-- Do the records of the active segment follow the chain? -/
def follows (chain : Chain) : List EventHistoryRecord → Bool
  | [] => true
  | first :: _ =>
    first.sequence = chain.expectedSequence && first.previousRecordSha256 = chain.previousRecord

/-- The history in the files.  There is none where the directory is missing or empty. -/
def reconstruct : Option Root → Except HistoryError Reconstruction
  | none => .ok .empty
  | some root =>
    match root.fault with
    | some code => .error code
    | none =>
      if root.transaction then .error .interrupted
      else if !(root.segments.names ++ root.manifests.names).all SegmentName.isWellFormed then
        .error .corrupted
      else do
        let anchor ← readRetentionAnchor sha256 root
        let start := Chain.ofAnchor anchor
        let segments ← readSegments sha256 root start (segmentNames root)
        let sealed : Reconstruction := ⟨start, segments, [], anchor.isSome⟩
        let activeBytes := root.active.getD []
        let activeRecords ← parseRecords sha256 activeBytes sealed.chain.previousRecord
        if limits.maxSegmentEvents < activeRecords.length ||
            limits.maxSegmentBytes < byteLength activeBytes then
          .error .capacityExceeded
        else if !follows sealed.chain activeRecords then .error .corrupted
        else .ok { sealed with activeRecords }

/-- The policy of the file, or the one that the history was configured with. -/
def readPolicy (disk : Option Root) : Except HistoryError EventHistoryRetentionPolicy :=
  match disk.bind Root.policy with
  | none => .ok (limits.initialRetentionPolicy.getD defaultRetentionPolicy)
  | some text => decode text >>= createRetentionPolicy

/-! ## Exports -/

/-- A key that orders timestamps and hashes as `localeCompare` does: signs and marks stand before
digits, and digits before letters. -/
def collationKey (text : String) : List Nat :=
  text.toList.map fun c =>
    if c = '-' then 0 else if c = ':' then 1 else if c = '.' then 2 else if c = '+' then 3
    else 4 + c.toNat

/-- Exports are listed by the time they were made at, and then by their hashes. -/
def EventHistoryExportMetadata.key (metadata : EventHistoryExportMetadata) : List Nat ×ₗ List Nat :=
  toLex (collationKey metadata.createdAt.text, collationKey metadata.exportId)

/-- The content of an export is read only with the hash and the length its manifest has for it. -/
def readVerifiedExportContent (root : Root) (metadata : EventHistoryExportMetadata) (exportId : String) :
    Except HistoryError Text :=
  match root.exportContents.get? exportId with
  | none => .error .exportCorrupt
  | some content =>
    if metadata.exportId ≠ sha256 content || metadata.contentSha256 ≠ sha256 content ||
        metadata.byteCount ≠ byteLength content then
      .error .exportCorrupt
    else .ok content

/-- The metadata of an export whose manifest is there, after the check of its content. -/
def readExportMetadata (root : Root) (exportId : String) (text : Text) :
    Except HistoryError EventHistoryExportMetadata := do
  let metadata ← decode text >>= parseExportMetadata
  if metadata.exportId ≠ exportId then .error .exportCorrupt
  else do
    let _ ← readVerifiedExportContent sha256 root metadata exportId
    return metadata

/-- The loop over the manifests; the first export that is corrupt makes the list fail. -/
def readExports (root : Root) : List String → Except HistoryError (List EventHistoryExportMetadata)
  | [] => .ok []
  | exportId :: rest =>
    match root.exportManifests.get? exportId with
    | none => .error .corrupted
    | some text => do
      let metadata ← readExportMetadata sha256 root exportId text
      let metadatas ← readExports root rest
      return metadata :: metadatas

/-- Are there a content and a manifest for every export, and no other files? -/
def Root.exportsPaired (root : Root) : Bool :=
  (root.exportContents.names ++ root.exportManifests.names).all fun exportId =>
    isSha256 exportId && exportId ∈ root.exportContents.names && exportId ∈ root.exportManifests.names

/-- The exports, each with its content checked. -/
def listExports : Option Root → Except HistoryError (List EventHistoryExportMetadata)
  | none => .ok []
  | some root =>
    match root.fault with
    | some code => .error code
    | none =>
      if !root.exportsPaired then .error .corrupted
      else do
        let metadatas ← readExports sha256 root (sortBy collationKey root.exportManifests.names)
        return sortBy EventHistoryExportMetadata.key metadatas

/-- The metadata of an export; an identifier that is no hash belongs to none. -/
def getExport (disk : Option Root) (exportId : String) :
    Except HistoryError (Option EventHistoryExportMetadata) :=
  if !isSha256 exportId then .ok none
  else
    match disk with
    | none => .ok none
    | some root =>
      match root.exportManifests.get? exportId with
      | none => .ok none
      | some text => do
        let metadata ← readExportMetadata sha256 root exportId text
        return some metadata

/-- The content is checked a second time when it is read. -/
def readExport (disk : Option Root) (exportId : String) : Except HistoryError Text := do
  match ← getExport sha256 disk exportId, disk with
  | some metadata, some root => readVerifiedExportContent sha256 root metadata exportId
  | _, _ => .error .exportNotFound

/-! ## Creating an export -/

/-- The first line of an export says what it was asked for, and from when on the history was retained. -/
def exportHeader (state : Reconstruction) (request : EventHistoryExportRequest) (generatedAt : Timestamp)
    (retentionAnchorSha256 : String) : Fields :=
  [("schemaVersion", .num 1), ("kind", .str "atlas-manager-event-history-export"),
    ("fromSequence", .num request.fromSequence), ("throughSequence", .num request.throughSequence),
    ("generatedAt", .str generatedAt.text), ("filters", .obj []),
    ("earliestRetainedSequence", .num state.earliestRetainedSequence),
    ("retentionAnchorSha256", .str retentionAnchorSha256)]

/-- The line of an event. -/
def exportEvent (event : AdministrativeEvent) : Fields :=
  [("kind", .str "event"), ("event", .obj event.fields)]

/-- A canonical line, as records, manifests and exports have them. -/
def jsonLine (fields : Fields) : Text := canonicalJson (.obj fields) ++ [0x0A]

/-- The lines of the events, one behind the other. -/
def exportEventLines (events : List AdministrativeEvent) : Text :=
  events.flatMap fun event => jsonLine (exportEvent event)

/-- The hash of the record of an event. -/
def recordHashOf (state : Reconstruction) : Option AdministrativeEvent → JsValue
  | none => .str genesisHash
  | some event =>
    match state.records.find? fun record => record.sequence = event.sequence with
    | some record => .str record.recordSha256
    | none => .undefined

/-- The last line binds the export to the chain of records. -/
def exportFooter (state : Reconstruction) (events : List AdministrativeEvent) (exportSha256 : String) :
    Fields :=
  [("kind", .str "footer"), ("exportedEventCount", .num events.length),
    ("firstExportedSequence", .num ((events.head?.map (·.sequence)).getD 0)),
    ("lastExportedSequence", .num ((events.getLast?.map (·.sequence)).getD 0)),
    ("firstRecordSha256", recordHashOf state events.head?),
    ("lastRecordSha256", recordHashOf state events.getLast?),
    ("eventContentSha256", .str (sha256 (exportEventLines events))),
    ("exportSha256", .str exportSha256)]

/-- An export, whose footer has the hash of the export with an empty hash there. -/
def exportContent (header : Fields) (state : Reconstruction) (events : List AdministrativeEvent) : Text :=
  let front := jsonLine header ++ exportEventLines events
  front ++ jsonLine (exportFooter sha256 state events
    (sha256 (front ++ jsonLine (exportFooter sha256 state events ""))))

/-- The events in the range of a request. -/
def exportedEvents (state : Reconstruction) (request : EventHistoryExportRequest) :
    List AdministrativeEvent :=
  state.events.filter fun event =>
    request.fromSequence ≤ event.sequence && event.sequence ≤ request.throughSequence

/-- An export is named by the hash of its content. -/
def exportMetadata (request : EventHistoryExportRequest) (eventCount : Nat) (content : Text)
    (createdAt : Timestamp) (retentionAnchorSha256 : String) : EventHistoryExportMetadata where
  exportId := sha256 content
  fromSequence := request.fromSequence
  throughSequence := request.throughSequence
  eventCount
  byteCount := byteLength content
  contentSha256 := sha256 content
  createdAt
  retentionAnchorSha256

/-- `state.retentionAnchorPresent ? this.#retentionAnchorHash() : EVENT_HISTORY_GENESIS_SHA256` -/
def exportAnchorHash (state : Reconstruction) : Option Root → Except HistoryError String
  | none => .ok genesisHash
  | some root =>
    if state.retentionAnchorPresent then retentionAnchorHash sha256 root else .ok genesisHash

/-- The content of an export and its metadata, before anything is written. -/
def prepareExport (now : Timestamp) (input : JsValue) (disk : Option Root) :
    Except HistoryError (Text × EventHistoryExportMetadata) := do
  let request ← parseExportRequest input
  let state ← reconstruct sha256 limits disk
  if request.fromSequence < state.earliestRetainedSequence ||
      state.latestSequence < request.throughSequence ||
      request.throughSequence < request.fromSequence then
    .error .historyPruned
  else
    let events := exportedEvents state request
    if eventHistoryMaxExportEvents < events.length then .error .capacityExceeded
    else do
      let retentionAnchorSha256 ← exportAnchorHash sha256 state disk
      let content :=
        exportContent sha256 (exportHeader state request now retentionAnchorSha256) state events
      if eventHistoryMaxExportBytes < byteLength content then .error .capacityExceeded
      else
        .ok (content, exportMetadata sha256 request events.length content now retentionAnchorSha256)

/-- An export is made once; the same one made again is left as it is. -/
inductive ExportOutcome where
  | created
  | unchanged
  deriving DecidableEq

/-- The answer of a call to export. -/
structure EventHistoryExportResult where
  outcome : ExportOutcome
  metadata : EventHistoryExportMetadata
  deriving DecidableEq

/-- The content and its manifest are written together. -/
def Root.writeExport (root : Root) (content : Text) (metadata : EventHistoryExportMetadata) : Root :=
  { root with
    exportContents := root.exportContents.write metadata.exportId content
    exportManifests := root.exportManifests.write metadata.exportId (jsonLine metadata.fields) }

/-- Nothing is written where an export of that name is there already. -/
def createExport (now : Timestamp) (input : JsValue) (disk : Option Root) :
    Except HistoryError EventHistoryExportResult × Option Root :=
  match prepareExport sha256 limits now input disk with
  | .error code => (.error code, disk)
  | .ok (content, metadata) =>
    match getExport sha256 disk metadata.exportId with
    | .error code => (.error code, disk)
    | .ok (some existing) => (.ok ⟨.unchanged, existing⟩, disk)
    | .ok none => (.ok ⟨.created, metadata⟩, disk.map fun root => root.writeExport content metadata)

/-! ## Removing exports -/

/-- Was anything removed? -/
inductive RetentionOutcome where
  | unchanged
  | pruned
  deriving DecidableEq

/-- The answer of a call to prune exports. -/
structure ExportRetentionResult where
  outcome : RetentionOutcome
  removedExportCount : Nat
  deriving DecidableEq

/-- `Date.parse(this.#clock())` less a number of days. -/
def ageCutoff (now : Timestamp) (days : Nat) : Int := now.ms - days * 86400000

/-- The exports to be removed.  An export counts all that stand behind it in the list. -/
def exportCandidates (policy : EventHistoryRetentionPolicy) (cutoff : Int)
    (metadatas : List EventHistoryExportMetadata) : List EventHistoryExportMetadata :=
  (metadatas.zipIdx.filter fun (item, index) =>
    if metadatas.length - index ≤ policy.minExports then false
    else policy.maxExports < metadatas.length - index || item.createdAt.ms < cutoff).map Prod.fst

/-- The candidates are removed with their manifests. -/
def pruneExports (now : Timestamp) (disk : Option Root) :
    Except HistoryError ExportRetentionResult × Option Root :=
  match readPolicy limits disk with
  | .error code => (.error code, disk)
  | .ok policy =>
    match listExports sha256 disk with
    | .error code => (.error code, disk)
    | .ok metadatas =>
      let candidates := exportCandidates policy (ageCutoff now policy.maxExportAgeDays) metadatas
      let ids := candidates.map EventHistoryExportMetadata.exportId
      (.ok ⟨if candidates.length = 0 then .unchanged else .pruned, candidates.length⟩,
        disk.map fun root =>
          { root with
            exportContents := root.exportContents.without ids
            exportManifests := root.exportManifests.without ids })

/-! ## Removing segments -/

/-- The answer of a call to prune segments. -/
structure EventHistoryRetentionResult where
  outcome : RetentionOutcome
  removedSegmentCount : Nat
  removedEventCount : Nat
  deriving DecidableEq

/-- The loop over the sealed segments: those at the front, up to the first one that is to stay. -/
def removedSegments (policy : EventHistoryRetentionPolicy) (cutoff : Int) (total : Nat) :
    Nat → List SealedSegment → List SealedSegment
  | _, [] => []
  | removed, item :: rest =>
    if total - removed ≤ policy.minSealedSegments then []
    else
      let overCount : Bool := policy.maxSealedSegments < total - removed
      let tooOld : Bool := item.manifest.sealedAt.ms < cutoff
      if !overCount && !tooOld then []
      else item :: removedSegments policy cutoff total (removed + 1) rest

/-- The anchor without the hash of itself. -/
def unsignedAnchor (state : Reconstruction) (first last next : SealedSegment)
    (removed : List SealedSegment) (nextFirstRecord : EventHistoryRecord)
    (previousRetentionRecordSha256 : String) (prunedAt : Timestamp) : EventHistoryRetentionAnchor where
  retentionSequence := state.latestSequence
  removedFirstSequence := first.manifest.firstSequence
  removedLastSequence := last.manifest.lastSequence
  removedEventCount := (removed.map (·.manifest.eventCount)).sum
  removedSegmentCount := removed.length
  removedFirstRecordSha256 := first.manifest.firstRecordSha256
  removedLastRecordSha256 := last.manifest.lastRecordSha256
  removedSegmentChainHead := last.manifest.manifestSha256
  nextRetainedSequence := next.manifest.firstSequence
  nextRetainedPreviousRecordSha256 := nextFirstRecord.previousRecordSha256
  previousRetentionRecordSha256
  prunedAt
  retentionRecordSha256 := ""

/-- The hash of an anchor is that of its other fields. -/
def EventHistoryRetentionAnchor.sign (anchor : EventHistoryRetentionAnchor) :
    EventHistoryRetentionAnchor :=
  { anchor with retentionRecordSha256 := sha256 (canonicalJson (.obj anchor.unsignedFields)) }

/-- The anchor is appended to the ledger before the files are removed. -/
def Root.removeSegments (root : Root) (anchor : EventHistoryRetentionAnchor)
    (names : List SegmentName) : Root :=
  { root with
    ledger := some (root.ledger.getD [] ++ jsonLine anchor.fields)
    segments := root.segments.without names
    manifests := root.manifests.without names }

/-- The segments to be removed are replaced by an anchor, on which the rest of the history hangs.  At
least one segment stays, whose first record the anchor names. -/
def pruneSegments (now : Timestamp) (disk : Option Root) :
    Except HistoryError EventHistoryRetentionResult × Option Root :=
  match reconstruct sha256 limits disk with
  | .error code => (.error code, disk)
  | .ok state =>
    match readPolicy limits disk with
    | .error code => (.error code, disk)
    | .ok policy =>
      let remove := removedSegments policy (ageCutoff now policy.maxSealedSegmentAgeDays)
        state.sealed.length 0 state.sealed
      match disk, remove.head?, remove.getLast? with
      | some root, some first, some last =>
        match state.sealed[remove.length]? with
        | none => (.error .retentionBlocked, disk)
        | some next =>
          -- from here on `transaction.json` is there, until everything has been removed
          let interrupted := some { root with transaction := true }
          match retentionAnchorHash sha256 root with
          | .error code => (.error code, interrupted)
          | .ok previous =>
            match state.records.find? fun record => record.sequence = next.manifest.firstSequence with
            | none => (.error .retentionBlocked, interrupted)
            | some nextFirstRecord =>
              let anchor :=
                (unsignedAnchor state first last next remove nextFirstRecord previous now).sign sha256
              (.ok ⟨.pruned, remove.length, anchor.removedEventCount⟩,
                some (root.removeSegments anchor (remove.map SealedSegment.name)))
      | _, _, _ => (.ok ⟨.unchanged, 0, 0⟩, disk)

end History

end AtlasManager.EventHistory
