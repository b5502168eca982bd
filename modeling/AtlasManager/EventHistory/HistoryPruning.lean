import AtlasManager.EventHistory.HistoryRecording
import AtlasManager.EventHistory.RecordLength
import AtlasManager.EventHistory.SegmentPruning

/-!
# AtlasManager.EventHistory.HistoryPruning

A retention policy, applied to the sealed segments and to the exports of a history.

* `SegmentsPruned`, `ExportsPruned` -- what a run does that keeps to the policy;
* `prunesSegments_iff` -- a run over the segments does where the ledger can be appended to;
* `prunesHistory_iff` -- **both runs keep to the policy** exactly where this is so and the exports
  are listed in turn.
-/

namespace AtlasManager.EventHistory

open AtlasManager.Lib AtlasManager.Lib.Rfc8259 AtlasManager.Backup

variable {sha256 : Text → String} {limits : HistoryLimits}

/-! ## The segments -/

/-- What a run of `pruneSegments` does that keeps to its policy: the segments removed are the oldest
ones, and the others, the active segment and the exports stay. -/
structure SegmentsPruned (sha256 : Text → String) (limits : HistoryLimits)
    (history : ConsistentHistory sha256 limits) (policy : EventHistoryRetentionPolicy) (now : Timestamp)
    (removed kept : List SealedSegment) (disk : Option Root) : Prop where
  run : pruneSegments sha256 limits now history.disk =
    (.ok ⟨if removed.length = 0 then .unchanged else .pruned, removed.length,
      (removed.flatMap SealedSegment.records).length⟩, disk)
  sealed : history.state.sealed = removed ++ kept
  reads : reconstruct sha256 limits disk = .ok (history.state.behind removed kept)
  active : disk.bind Root.active = history.disk.bind Root.active
  lists : listExports sha256 disk = .ok history.exports
  bounds : WithinBounds policy.minSealedSegments policy.maxSealedSegments
    (isOldSegment (ageCutoff now policy.maxSealedSegmentAgeDays)) history.state.sealed removed kept
  again : pruneSegments sha256 limits now disk = (.ok ⟨.unchanged, 0, 0⟩, disk)

/-- The last line of the ledger is ended, if the oldest segment is to be removed. -/
def LedgerEnded (policy : EventHistoryRetentionPolicy) (now : Timestamp)
    (history : ConsistentHistory sha256 limits) : Prop :=
  ∀ segment ∈ history.state.sealed.head?,
    isRemovable policy.minSealedSegments policy.maxSealedSegments history.state.sealed.length
      (isOldSegment (ageCutoff now policy.maxSealedSegmentAgeDays) segment) = true →
    IsEnded 0x0A ((history.disk.bind Root.ledger).getD [])

theorem lists_removeSegments {root : Root} {exports : List EventHistoryExportMetadata}
    (h : Lists sha256 root exports) (anchor : EventHistoryRetentionAnchor) (names : List SegmentName) :
    Lists sha256 (root.removeSegments anchor names) exports := by
  obtain ⟨metadatas, hmetadatas, hexports⟩ := h.reads
  exact ⟨h.fault, h.paired, metadatas,
    hmetadatas.imp fun _ _ hread => ⟨hread.manifest, hread.ownId, hread.content⟩, hexports⟩

section Segments

variable {policy : EventHistoryRetentionPolicy} {now : Timestamp}
  (history : ConsistentHistory sha256 limits) (hpolicy : readPolicy limits history.disk = .ok policy)

include hpolicy

/-- Where the oldest segment stays, nothing changes. -/
theorem segmentsPruned_unchanged
    (hnone : removedFront policy.minSealedSegments policy.maxSealedSegments
      (isOldSegment (ageCutoff now policy.maxSealedSegmentAgeDays)) history.state.sealed = []) :
    SegmentsPruned sha256 limits history policy now [] history.state.sealed history.disk := by
  have hrun : pruneSegments sha256 limits now history.disk = (.ok ⟨.unchanged, 0, 0⟩, history.disk) :=
    pruneSegments_unchanged history.reads hpolicy hnone
  have hbounds := @withinBounds_front SealedSegment policy.minSealedSegments policy.maxSealedSegments
    (isOldSegment (ageCutoff now policy.maxSealedSegmentAgeDays)) policy.segments_le history.state.sealed
  have hkept := @removedFront_append SealedSegment policy.minSealedSegments policy.maxSealedSegments
    (isOldSegment (ageCutoff now policy.maxSealedSegmentAgeDays)) history.state.sealed
  rw [hnone] at hbounds hkept
  rw [List.nil_append] at hkept
  rw [hkept] at hbounds
  have hsame : history.state.behind [] history.state.sealed = history.state := by
    simp [Reconstruction.behind, behind_nil]
  exact {
    run := hrun
    sealed := rfl
    reads := by rw [hsame, history.reads]
    active := rfl
    lists := history.lists
    bounds := hbounds
    again := hrun }

/-- Where it does not, segments are removed, and the history can be read afterwards exactly where the
ledger ended with a line. -/
theorem segmentsPruned_iff_isEnded (hsha256 : ∀ text, isSha256 (sha256 text) = true)
    (hsome : removedFront policy.minSealedSegments policy.maxSealedSegments
      (isOldSegment (ageCutoff now policy.maxSealedSegmentAgeDays)) history.state.sealed ≠ []) :
    (∃ removed kept disk, SegmentsPruned sha256 limits history policy now removed kept disk) ↔
      IsEnded 0x0A ((history.disk.bind Root.ledger).getD []) := by
  obtain ⟨disk, state, exports, hread, hlist⟩ := history
  dsimp only at hsome hpolicy ⊢
  have hbounds := @withinBounds_front SealedSegment policy.minSealedSegments policy.maxSealedSegments
    (isOldSegment (ageCutoff now policy.maxSealedSegmentAgeDays)) policy.segments_le state.sealed
  have hsealed := @removedFront_append SealedSegment policy.minSealedSegments policy.maxSealedSegments
    (isOldSegment (ageCutoff now policy.maxSealedSegmentAgeDays)) state.sealed
  have hagain := @removedFront_again SealedSegment policy.minSealedSegments policy.maxSealedSegments
    (isOldSegment (ageCutoff now policy.maxSealedSegmentAgeDays)) state.sealed
  generalize hremoved : removedFront policy.minSealedSegments policy.maxSealedSegments
    (isOldSegment (ageCutoff now policy.maxSealedSegmentAgeDays)) state.sealed = removed
    at hsome hbounds hsealed
  generalize keptBehind policy.minSealedSegments policy.maxSealedSegments
    (isOldSegment (ageCutoff now policy.maxSealedSegmentAgeDays)) state.sealed = kept
    at hbounds hsealed hagain
  cases disk with
  | none =>
      rw [reconstruct, Except.ok.injEq] at hread
      rw [← hread] at hremoved
      exact absurd hremoved.symm hsome
  | some root =>
      have hreads := reconstruct_eq_ok.mp hread
      have hkept : kept ≠ [] := by
        intro hempty
        have hleast := hbounds.atLeast
        have hpos := policy.segments_pos
        have hlength := List.length_pos_iff.mpr hsome
        rw [← hsealed, List.length_append, hempty, List.length_nil] at hleast
        omega
      obtain ⟨anchor, hvalid, hchain, ⟨latest, hlatest, hprevious⟩, hrun⟩ :=
        pruneSegments_pruned hsha256 hreads hpolicy hremoved hsealed.symm hsome hkept
      constructor
      · intro h
        obtain ⟨removed', kept', disk', h⟩ := h
        by_contra hopen
        have hdisk : _ = disk' := congrArg Prod.snd (hrun.symm.trans h.run)
        have hreads' := h.reads
        rw [← hdisk] at hreads'
        obtain ⟨latest', hlatest', -, -⟩ := (reconstruct_eq_ok.mp hreads').anchor
        exact readRetentionAnchor_open hlatest hopen rfl latest' hlatest'
      · intro hended
        have hanchor : readRetentionAnchor sha256
            (root.removeSegments anchor (removed.map SealedSegment.name)) = .ok (some anchor) :=
          readRetentionAnchor_append hlatest hended hvalid hprevious rfl
        have hreads' := reconstruct_eq_ok.mpr
          (hreads.removeSegments (hreads.split hsealed.symm) hsome hchain hanchor)
        refine ⟨removed, kept, some (root.removeSegments anchor (removed.map SealedSegment.name)), ?_⟩
        exact {
          run := by
            rw [if_neg (List.length_pos_iff.mpr hsome).ne']
            exact hrun
          sealed := hsealed.symm
          reads := hreads'
          active := rfl
          lists := listExports_eq_ok.mpr (lists_removeSegments (listExports_eq_ok.mp hlist) _ _)
          bounds := hbounds
          again := pruneSegments_unchanged hreads' hpolicy hagain }

/-- **A run over the segments keeps to its policy** exactly where the ledger can be appended to. -/
theorem prunesSegments_iff (hsha256 : ∀ text, isSha256 (sha256 text) = true) :
    (∃ removed kept disk, SegmentsPruned sha256 limits history policy now removed kept disk) ↔
      LedgerEnded policy now history := by
  by_cases hnone : removedFront policy.minSealedSegments policy.maxSealedSegments
      (isOldSegment (ageCutoff now policy.maxSealedSegmentAgeDays)) history.state.sealed = []
  · have hstays := removedFront_eq_nil_iff.mp hnone
    exact ⟨fun _ segment hsegment hremovable => absurd hremovable (hstays segment hsegment),
      fun _ => ⟨[], _, _, segmentsPruned_unchanged history hpolicy hnone⟩⟩
  · rw [segmentsPruned_iff_isEnded history hpolicy hsha256 hnone]
    have hsome := removedFront_eq_nil_iff.not.mp hnone
    simp only [not_forall, not_not] at hsome
    obtain ⟨segment, hsegment, hremovable⟩ := hsome
    exact ⟨fun hended _ _ _ => hended, fun h => h segment hsegment hremovable⟩

end Segments

/-! ## Both -/

/-- **Both runs keep to the policy** exactly where the ledger can be appended to, and no export that
is to be removed is listed before an older one that is to be kept. -/
theorem prunesHistory_iff (hsha256 : ∀ text, isSha256 (sha256 text) = true)
    (history : ConsistentHistory sha256 limits) (policy : EventHistoryRetentionPolicy)
    (hpolicy : readPolicy limits history.disk = .ok policy) (now : Timestamp) :
    ((∃ removed kept disk, SegmentsPruned sha256 limits history policy now removed kept disk) ∧
      (∃ removed kept disk, ExportsPruned sha256 limits history policy now removed kept disk)) ↔
    LedgerEnded policy now history ∧ ExportsInTurn policy now history.exports :=
  and_congr (prunesSegments_iff history hpolicy hsha256) (prunesExports_iff history hpolicy)

/-! ### Two segments and two exports -/

def exportAt (content : Text) (createdAt : Timestamp) : EventHistoryExportMetadata :=
  exportMetadata textDigest ⟨1, 1⟩ 1 content createdAt genesisHash

theorem valid_exportAt {content : Text} (h : byteLength content < 2 ^ 53) (createdAt : Timestamp) :
    (exportAt content createdAt).Valid where
  exportId := isSha256_textDigest _
  fromSequence := by
    show 1 ≤ 1 ∧ 1 < 2 ^ 53
    decide
  throughSequence := by
    show 1 ≤ 1 ∧ 1 < 2 ^ 53
    decide
  from_le_through := le_rfl
  eventCount := by
    show 1 < 2 ^ 53
    decide
  byteCount := h
  contentSha256 := isSha256_textDigest _
  retentionAnchorSha256 := isSha256_genesisHash

/-- A directory with two exports, one of which was created at an instant. -/
def twoExports (root : Root) (createdAt : Timestamp) : Root :=
  (root.writeExport [] (exportAt [] exportInstant)).writeExport [0x61] (exportAt [0x61] createdAt)

theorem exportId_ne : textDigest [] ≠ textDigest [0x61] := by decide +kernel

/-- No export is in the directory so far. -/
def WithoutExports (root : Root) : Prop :=
  root.exportContents = .empty _ _ ∧ root.exportManifests = .empty _ _

theorem names_twoExports {root : Root} (h : WithoutExports root) (createdAt : Timestamp) :
    (twoExports root createdAt).exportContents.names = [textDigest [0x61], textDigest []] ∧
      (twoExports root createdAt).exportManifests.names = [textDigest [0x61], textDigest []] := by
  have hwrite : ∀ (content content' : Text), (((Lib.Directory.empty String Text).write
      (textDigest []) content).write (textDigest [0x61]) content').names =
        [textDigest [0x61], textDigest []] := by
    intro content content'
    rw [Lib.Directory.names_write_of_not_mem, Lib.Directory.names_write_of_not_mem]
    · rfl
    · simp [Lib.Directory.empty, Lib.Directory.names]
    · rw [Lib.Directory.names_write_of_not_mem]
      · simpa [Lib.Directory.empty, Lib.Directory.names] using exportId_ne.symm
      · simp [Lib.Directory.empty, Lib.Directory.names]
  simp only [twoExports, Root.writeExport, h.1, h.2]
  exact ⟨hwrite _ _, hwrite _ _⟩

/-- The export that was created at the instant is listed first, where its key is the first. -/
theorem lists_twoExports {root : Root} (hfault : root.fault = none) (hwithout : WithoutExports root)
    {createdAt : Timestamp} (h : (exportAt [0x61] createdAt).key < (exportAt [] exportInstant).key) :
    listExports textDigest (some (twoExports root createdAt)) =
      .ok [exportAt [0x61] createdAt, exportAt [] exportInstant] := by
  obtain ⟨hcontents, hmanifests⟩ := names_twoExports hwithout createdAt
  refine listExports_eq_ok.mpr ⟨hfault, exportsPaired_iff.mpr ?_,
    [exportAt [0x61] createdAt, exportAt [] exportInstant], ?_, ?_⟩
  · rw [hcontents, hmanifests]
    simp [isSha256_textDigest]
  · have hsorted : sortBy collationKey [textDigest [0x61], textDigest []] =
        [textDigest [0x61], textDigest []] := by decide +kernel
    rw [hmanifests, hsorted]
    have hempty : (exportAt [] exportInstant).Valid := valid_exportAt (by decide) exportInstant
    have hone : (exportAt [0x61] createdAt).Valid := valid_exportAt (by decide) createdAt
    refine .cons (readsExport_written hone rfl rfl rfl) (.cons ?_ .nil)
    exact (readsExport_written hempty rfl rfl rfl).write exportId_ne
  · rw [sortBy, List.insertionSort_cons, List.insertionSort_cons, List.insertionSort_nil,
      List.orderedInsert_nil, List.orderedInsert_cons, if_pos h.le]

/-- One segment and one export are kept. -/
def narrowPolicy : EventHistoryRetentionPolicy :=
  { defaultRetentionPolicy with
    maxSealedSegments := 1
    maxExports := 1
    segments_le := le_rfl
    exports_le := Nat.zero_le 1 }

def narrowLimits : HistoryLimits := ⟨10000, 16 * 1024 * 1024, some narrowPolicy⟩

theorem farInstant_inRange : -8640000000000000 ≤ (253402387200000 : Int) ∧
    (253402387200000 : Int) ≤ 8640000000000000 := by decide

/-- `+010000-01-02T00:00:00.000Z`. -/
def farInstant : Timestamp := ⟨253402387200000, farInstant_inRange⟩

def twoExportsHistory {root : Root} {state : Reconstruction}
    (hreads : Reconstructs textDigest narrowLimits root state) (hwithout : WithoutExports root)
    {createdAt : Timestamp} (h : (exportAt [0x61] createdAt).key < (exportAt [] exportInstant).key) :
    ConsistentHistory textDigest narrowLimits where
  disk := some (twoExports root createdAt)
  state := state
  exports := [exportAt [0x61] createdAt, exportAt [] exportInstant]
  reads := by
    have hsame : SameHistory (some (twoExports root createdAt)) (some root) :=
      ⟨rfl, rfl, rfl, rfl, rfl, rfl⟩
    rw [reconstruct_congr hsame]
    exact reconstruct_eq_ok.mpr hreads
  lists := lists_twoExports hreads.fault hwithout h

theorem inTurn_twoExports {createdAt : Timestamp} : ExportsInTurn narrowPolicy exportInstant
    [exportAt [0x61] createdAt, exportAt [] exportInstant] ↔ createdAt.ms ≤ exportInstant.ms := by
  have hstays : isRemovable narrowPolicy.minExports narrowPolicy.maxExports 1 (isOldExport
      (ageCutoff exportInstant narrowPolicy.maxExportAgeDays) (exportAt [] exportInstant)) = false := by
    decide
  have hgoes : ∀ old, isRemovable narrowPolicy.minExports narrowPolicy.maxExports 2 old = true :=
    fun _ => rfl
  rw [ExportsInTurn, InTurn, counted, counted, counted, List.pairwise_pair]
  dsimp only [List.length_cons, List.length_nil]
  rw [hstays, hgoes]
  show (exportInstant.ms < createdAt.ms → true = true → false = true) ↔ _
  simp

/-- A directory without records. -/
def idleRoot : Root := { wakeAlarmRoot with active := none }

theorem reads_idleRoot : Reconstructs textDigest narrowLimits idleRoot .empty :=
  reconstruct_eq_ok.mp rfl

/-- Of two exports the one of the year 10000 is listed first and removed. -/
theorem not_prunesHistory : ∃ history : ConsistentHistory textDigest narrowLimits,
    history.disk = some (twoExports idleRoot farInstant) ∧
      readPolicy narrowLimits history.disk = .ok narrowPolicy ∧
      ¬ ∃ removed kept disk, ExportsPruned textDigest narrowLimits history narrowPolicy exportInstant
        removed kept disk := by
  have hfirst : (exportAt [0x61] farInstant).key < (exportAt [] exportInstant).key := by
    decide +kernel
  refine ⟨twoExportsHistory reads_idleRoot ⟨rfl, rfl⟩ hfirst, rfl, rfl, ?_⟩
  rw [prunesExports_iff _ rfl]
  exact inTurn_twoExports.not.mpr (by decide)

/-- The event of the first record, recorded again behind another record. -/
def wakeAlarmAgain (sequence : Nat) (previous : EventHistoryRecord) : EventHistoryRecord :=
  let unsigned : EventHistoryRecord :=
    ⟨sequence, { wakeAlarmCancelled with sequence }, previous.recordSha256, ""⟩
  { unsigned with recordSha256 := textDigest (serializeEventHistoryRecordForHash unsigned) }

theorem valid_wakeAlarmAgain {n : Nat} {previous : EventHistoryRecord}
    (hprevious : isSha256 previous.recordSha256 = true)
    (hcreated : createAdministrativeEvent (.obj (wakeAlarmAgain n previous).event.fields) =
      .ok (wakeAlarmAgain n previous).event) :
    (wakeAlarmAgain n previous).Valid textDigest where
  checked := by
    have hjs := isJs_of_isWritable (isWritable_fields checked_wakeAlarmCancelled)
    exact ⟨.obj (wakeAlarmAgain n previous).event.fields, ⟨hjs.1, hjs.2.1, trivial, hjs.2.2.2⟩,
      hcreated⟩
  sequence := rfl
  previousRecordSha256 := hprevious
  recordSha256 := isSha256_textDigest _
  hash := rfl

def secondRecord : EventHistoryRecord := wakeAlarmAgain 2 wakeAlarmRecord

def thirdRecord : EventHistoryRecord := wakeAlarmAgain 3 secondRecord

theorem valid_secondRecord : secondRecord.Valid textDigest :=
  valid_wakeAlarmAgain valid_wakeAlarmRecord.recordSha256 (by decide)

theorem valid_thirdRecord : thirdRecord.Valid textDigest :=
  valid_wakeAlarmAgain valid_secondRecord.recordSha256 (by decide)

theorem short_secondRecord :
    byteLength (serializeEventHistoryRecord secondRecord) ≤ eventHistoryMaxRecordBytes :=
  short_of_stored ⟨valid_secondRecord.checked, by decide +kernel⟩ valid_secondRecord rfl

theorem short_thirdRecord :
    byteLength (serializeEventHistoryRecord thirdRecord) ≤ eventHistoryMaxRecordBytes :=
  short_of_stored ⟨valid_thirdRecord.checked, by decide +kernel⟩ valid_thirdRecord rfl

/-- Two of three records are sealed, one after the other, and the third is in the active segment. -/
structure ThreeRecords (root : Root) (state : Reconstruction) (second third : EventHistoryRecord) :
    Prop where
  reads : Reconstructs textDigest narrowLimits root state
  without : WithoutExports root
  ledger : root.ledger = none
  policy : root.policy = none
  sealed : ∃ older newer : SealedSegment, state.sealed = [older, newer] ∧ newer.records = [second]
  active : state.activeRecords = [third]
  second : second.Same secondRecord
  third : third.Same thirdRecord

theorem exists_threeRecords : ∃ root state second third, ThreeRecords root state second third := by
  have hbytes : narrowLimits.maxSegmentBytes < 2 ^ 53 := by decide
  have hevents : 0 + 1 ≤ 10000 := by decide
  have hroom : ∀ {n}, n ≤ eventHistoryMaxRecordBytes → 0 + n ≤ 16 * 1024 * 1024 := by
    intro n hn
    have hmax : eventHistoryMaxRecordBytes = 65536 := rfl
    omega
  obtain ⟨read, hsame, hsequence, hfirst⟩ := reads_wakeAlarmRoot
  have hfirst : Reconstructs textDigest narrowLimits wakeAlarmRoot ⟨.genesis, [], [read], false⟩ :=
    { hfirst with }
  obtain ⟨name, manifest, -, hsealed⟩ :=
    rotateOne_rotated isSha256_textDigest hfirst hbytes (List.cons_ne_nil read []) exportInstant
  obtain ⟨second, hsecond, happended⟩ := hsealed.append valid_secondRecord short_secondRecord
    hsame.recordSha256.symm (congrArg Nat.succ hsequence).symm hevents (hroom short_secondRecord)
  have hsequences : [read.sequence, second.sequence] = [1, 2] := happended.linked.sequences
  obtain ⟨name', manifest', -, hboth⟩ :=
    rotateOne_rotated isSha256_textDigest happended hbytes (List.cons_ne_nil second []) exportInstant
  obtain ⟨third, hthird, hall⟩ := hboth.append valid_thirdRecord short_thirdRecord
    hsecond.recordSha256.symm (congrArg Nat.succ (List.cons.inj (List.cons.inj hsequences).2).1).symm
    hevents (hroom short_thirdRecord)
  exact ⟨_, _, second, third, {
    reads := hall
    without := ⟨rfl, rfl⟩
    ledger := rfl
    policy := rfl
    sealed := ⟨_, _, rfl, rfl⟩
    active := rfl
    second := hsecond
    third := hthird }⟩

/-- The older one of two segments and the older one of two exports are removed. -/
theorem prunesHistory_twoExports : ∃ history : ConsistentHistory textDigest narrowLimits,
    history.state.sealed.length = 2 ∧ history.exports.length = 2 ∧
      ((∃ removed kept disk, SegmentsPruned textDigest narrowLimits history narrowPolicy exportInstant
        removed kept disk) ∧
      ∃ removed kept disk, ExportsPruned textDigest narrowLimits history narrowPolicy exportInstant
        removed kept disk) := by
  have hfirst : (exportAt [0x61] ⟨0, Timestamp.zero_inRange⟩).key < (exportAt [] exportInstant).key := by
    decide +kernel
  obtain ⟨root, state, second, third, h⟩ := exists_threeRecords
  obtain ⟨older, newer, hsealed, -⟩ := h.sealed
  refine ⟨twoExportsHistory h.reads h.without hfirst, congrArg List.length hsealed, rfl, ?_⟩
  have hread : readPolicy narrowLimits (twoExportsHistory h.reads h.without hfirst).disk =
      .ok narrowPolicy := by
    show readPolicy narrowLimits (some (twoExports root _)) = _
    rw [readPolicy, Option.bind_some, show (twoExports root _).policy = root.policy from rfl, h.policy]
    rfl
  refine (prunesHistory_iff isSha256_textDigest _ _ hread _).mpr ⟨?_, inTurn_twoExports.mpr ?_⟩
  · intro segment _ _
    show IsEnded 0x0A (((some (twoExports root _)).bind Root.ledger).getD [])
    rw [Option.bind_some, show (twoExports root _).ledger = root.ledger from rfl, h.ledger]
    exact .inl rfl
  · decide

/-! ### An export behind removed segments -/

/-- A line of an export takes its names and its values, and what stands around them. -/
theorem length_line_le {fields : Fields} (h : IsWritable (.obj fields)) {n : Nat}
    (hnames : ∀ f ∈ fields, f.1 ∈ exportTexts)
    (hvalues : ∀ f ∈ fields, (treeOf f.2).write.length ≤ n) :
    (canonicalJson (.obj fields)).length ≤ fields.length * (208 + n) + 2 := by
  have hmember : ∀ member ∈ fields.map fun f => memberLength (unitsOf f.1, treeOf f.2),
      member ≤ 207 + n := by
    rw [List.forall_mem_map]
    intro f hf
    have hname : ∀ name ∈ exportTexts, name.length ≤ 34 := by decide
    have hfield := length_field f.1 f.2
    have hshort := hname f.1 (hnames f hf)
    have hvalue := hvalues f hf
    omega
  have hsum := List.sum_le_card_nsmul _ _ hmember
  have hfields := h
  rw [IsWritable] at hfields
  rw [canonicalJson, length_write_sortJson h, treeOf, fieldTrees_eq hfields.2, length_write_obj,
    List.map_map, List.length_map]
  rw [List.length_map, smul_eq_mul] at hsum
  have hsplit : fields.length * (208 + n) = fields.length * (207 + n) + fields.length := by ring
  rw [hsplit]
  exact Nat.add_le_add_right (Nat.add_le_add hsum (Nat.sub_le _ _)) 2

theorem length_unlines_le {texts : List Text} {n : Nat} (h : ∀ text ∈ texts, text.length ≤ n) :
    (unlines 0x0A texts).length ≤ texts.length * (n + 1) := by
  have hmember : ∀ length ∈ texts.map fun text => (text ++ [(0x0A : CodeUnit)]).length,
      length ≤ n + 1 := by
    rw [List.forall_mem_map]
    intro text htext
    rw [List.length_append]
    exact Nat.succ_le_succ (h text htext)
  have hsum := List.sum_le_card_nsmul _ _ hmember
  rwa [List.length_map, smul_eq_mul, ← List.length_flatMap] at hsum

def lastTwo : JsValue := .obj [("fromSequence", .num 2), ("throughSequence", .num 3)]

/-- The records that stay are read behind an anchor, and no export is in the directory yet. -/
structure TwoRetained (root : Root) (state : Reconstruction) (second third : EventHistoryRecord) :
    Prop where
  reads : Reconstructs textDigest narrowLimits root state
  records : state.records = [second, third]
  lists : Lists textDigest root []
  second : second.Same secondRecord
  third : third.Same thirdRecord

/-- The segment of the first record is removed. -/
theorem exists_twoRetained : ∃ root state second third, TwoRetained root state second third := by
  obtain ⟨root, state, second, third, h⟩ := exists_threeRecords
  obtain ⟨older, newer, hsealed, hnewer⟩ := h.sealed
  have hlists : listExports textDigest (some root) = .ok [] := by
    refine listExports_eq_ok.mpr ⟨h.reads.fault, exportsPaired_iff.mpr ?_, [], ?_, rfl⟩
    · rw [h.without.1, h.without.2]
      exact fun exportId hmem => absurd hmem List.not_mem_nil
    · rw [h.without.2]
      exact .nil
  have hpolicy : readPolicy narrowLimits (some root) = .ok narrowPolicy := by
    rw [readPolicy, Option.bind_some, h.policy]
    rfl
  have hended : LedgerEnded narrowPolicy exportInstant
      ⟨some root, state, [], reconstruct_eq_ok.mpr h.reads, hlists⟩ := by
    intro segment _ _
    show IsEnded 0x0A (((some root).bind Root.ledger).getD [])
    rw [Option.bind_some, h.ledger]
    exact .inl rfl
  obtain ⟨removed, kept, disk, hpruned⟩ :=
    (prunesSegments_iff _ hpolicy isSha256_textDigest).mpr hended
  have hsplit : [older, newer] = removed ++ kept := hsealed.symm.trans hpruned.sealed
  have hmost : kept.length ≤ 1 := hpruned.bounds.atMost
  have hleast : min 1 state.sealed.length ≤ kept.length := hpruned.bounds.atLeast
  obtain rfl : kept = [newer] := by
    rw [hsealed] at hleast
    obtain ⟨segment, rfl⟩ := List.length_eq_one_iff.mp (le_antisymm hmost hleast)
    have hlast : some newer = some segment :=
      (congrArg List.getLast? hsplit).trans List.getLast?_concat
    rw [Option.some.inj hlast]
  have hreads := hpruned.reads
  have hrecords : (state.behind removed [newer]).records = [second, third] := by
    simp [Reconstruction.records, Reconstruction.behind, hnewer, h.active]
  cases disk with
  | none =>
      rw [reconstruct, Except.ok.injEq] at hreads
      have hempty := congrArg Reconstruction.records hreads
      rw [hrecords] at hempty
      cases hempty
  | some pruned =>
      exact ⟨pruned, _, second, third, reconstruct_eq_ok.mp hreads, hrecords,
        listExports_eq_ok.mp hpruned.lists, h.second, h.third⟩

namespace TwoRetained

variable {root : Root} {state : Reconstruction} {second third : EventHistoryRecord}

theorem earliest (h : TwoRetained root state second third) : state.earliestRetainedSequence = 2 := by
  rw [Reconstruction.earliestRetainedSequence, h.records]
  exact h.second.sequence

theorem exportable (h : TwoRetained root state second third) : Exportable state ⟨2, 3⟩ := by
  have hlatest : state.latestSequence = 3 := by
    rw [Reconstruction.latestSequence, h.records]
    exact h.third.sequence
  rw [Exportable, h.earliest, hlatest]
  decide

theorem exportedEvents_eq (h : TwoRetained root state second third) :
    exportedEvents state ⟨2, 3⟩ = [second.event, third.event] := by
  have hvalid := h.reads.linked.valid
  rw [h.records, List.forall_mem_cons, List.forall_mem_singleton] at hvalid
  have htwo : second.event.sequence = 2 := hvalid.1.sequence.trans h.second.sequence
  have hthree : third.event.sequence = 3 := hvalid.2.sequence.trans h.third.sequence
  rw [exportedEvents, Reconstruction.events, h.records]
  simp [htwo, hthree]

theorem header_short (h : TwoRetained root state second third) {hash : String}
    (hhash : isSha256 hash = true) :
    (canonicalJson (.obj (exportHeader state ⟨2, 3⟩ exportInstant hash))).length ≤ 5000 := by
  have hwritable : IsWritable (.obj (exportHeader state ⟨2, 3⟩ exportInstant hash)) := by
    refine isWritable_exportHeader (show 2 < 2 ^ 53 by decide) (show 3 < 2 ^ 53 by decide) ?_ hhash
    rw [h.earliest]
    decide
  refine (length_line_le (n := 386) hwritable ?_ ?_).trans (by decide : 8 * (208 + 386) + 2 ≤ 5000)
  · simp [exportHeader, exportTexts]
  · rw [exportHeader, h.earliest]
    simp only [List.forall_mem_cons, List.not_mem_nil, false_implies, implies_true, and_true]
    exact ⟨by decide, by decide, by decide, by decide, by decide +kernel, by decide, by decide,
      length_hash hhash⟩

theorem event_short {record again : EventHistoryRecord} (hvalid : record.Valid textDigest)
    (hagain : again.Valid textDigest) (hsame : record.Same again)
    (hlength : (treeOf (.obj again.event.fields)).write.length ≤ 1000) :
    (canonicalJson (.obj (exportEvent record.event))).length ≤ 5000 := by
  have hevent : (treeOf (.obj record.event.fields)).write.length ≤ 1000 := by
    rw [← length_write_sortJson (isWritable_fields hvalid.checked), hsame.event,
      length_write_sortJson (isWritable_fields hagain.checked)]
    exact hlength
  refine (length_line_le (n := 1000) (isWritable_exportEvent hvalid.checked) ?_ ?_).trans
    (by decide : 2 * (208 + 1000) + 2 ≤ 5000)
  · simp [exportEvent, exportTexts]
  · simp only [exportEvent, List.forall_mem_cons, List.not_mem_nil, false_implies, implies_true,
      and_true]
    exact ⟨by decide, hevent⟩

theorem footer_short {firstHash lastHash contentHash ownHash : String}
    (hfirst : isSha256 firstHash = true) (hlast : isSha256 lastHash = true)
    (hcontent : isSha256 contentHash = true) (hown : isSha256 ownHash = true) :
    (canonicalJson (.obj (footerFields 2 2 3 firstHash lastHash contentHash ownHash))).length ≤ 5000 := by
  have hwritable : IsWritable (.obj (footerFields 2 2 3 firstHash lastHash contentHash ownHash)) :=
    isWritable_footerFields (by decide) (by decide) (by decide) (isUnits_of_isSha256 hfirst)
      (isUnits_of_isSha256 hlast) (isUnits_of_isSha256 hcontent) (isUnits_of_isSha256 hown)
  refine (length_line_le (n := 386) hwritable ?_ ?_).trans (by decide : 8 * (208 + 386) + 2 ≤ 5000)
  · simp [footerFields, exportTexts]
  · simp only [footerFields, List.forall_mem_cons, List.not_mem_nil, false_implies, implies_true,
      and_true]
    exact ⟨by decide, by decide, by decide, by decide, length_hash hfirst, length_hash hlast,
      length_hash hcontent, length_hash hown⟩

/-- The export is not too large. -/
theorem short (h : TwoRetained root state second third) {hash : String} (hhash : isSha256 hash = true) :
    byteLength (exportContent textDigest (exportHeader state ⟨2, 3⟩ exportInstant hash) state
      (exportedEvents state ⟨2, 3⟩)) ≤ eventHistoryMaxExportBytes := by
  have hvalid := h.reads.linked.valid
  have hmem : second ∈ state.records ∧ third ∈ state.records := by
    rw [h.records]
    simp
  have htwo := event_short (hvalid _ hmem.1) valid_secondRecord h.second (by decide +kernel)
  have hthree := event_short (hvalid _ hmem.2) valid_thirdRecord h.third (by decide +kernel)
  rw [h.reads.exportContent_eq h.exportable ⟨hmem.1, h.second.sequence⟩ ⟨hmem.2, h.third.sequence⟩
    (congrArg (List.map _) h.exportedEvents_eq).symm]
  refine (byteLength_le _).trans ((Nat.mul_le_mul_left 3 (length_unlines_le (n := 5000) ?_)).trans ?_)
  · rw [List.forall_mem_cons, List.forall_mem_append, List.forall_mem_singleton]
    refine ⟨h.header_short hhash, ?_, ?_⟩
    · rw [List.map_cons, List.map_cons, List.map_nil, List.forall_mem_cons, List.forall_mem_singleton]
      exact ⟨htwo, hthree⟩
    · exact footer_short (hvalid _ hmem.1).recordSha256 (hvalid _ hmem.2).recordSha256
        (isSha256_textDigest _) (isSha256_textDigest _)
  · show 3 * (4 * 5001) ≤ 128 * 1024 * 1024
    decide

theorem prepared (h : TwoRetained root state second third) : ∃ content metadata,
    prepareExport textDigest narrowLimits exportInstant lastTwo (some root) =
      .ok (content, metadata) := by
  have hcount : (exportedEvents state ⟨2, 3⟩).length ≤ eventHistoryMaxExportEvents := by
    rw [h.exportedEvents_eq]
    show 2 ≤ 100000
    decide
  exact ⟨_, _, (prepareExport_eq_ok h.reads).mpr ⟨⟨2, 3⟩, by decide, h.exportable, hcount, rfl,
    h.short (isSha256_retentionHash _), rfl⟩⟩

end TwoRetained

/-- Two events are exported that are left behind a removed segment, and then once more. -/
theorem exportsRange_behindRemoved : ∃ history : ConsistentHistory textDigest narrowLimits,
    history.state.earliestRetainedSequence = 2 ∧ Exportable history.state ⟨2, 3⟩ ∧
      (∃ metadata, createExport textDigest narrowLimits exportInstant lastTwo history.disk =
        (.ok ⟨.unchanged, metadata⟩, history.disk)) ∧
      ExportsRange textDigest narrowLimits history exportInstant lastTwo := by
  obtain ⟨root, state, second, third, h⟩ := exists_twoRetained
  obtain ⟨content, metadata, hprepared⟩ := h.prepared
  obtain ⟨-, hid, hwritten⟩ := readsExport_prepared isSha256_textDigest h.reads hprepared
  have hsame : SameHistory (some (root.writeExport content metadata)) (some root) :=
    ⟨rfl, rfl, rfl, rfl, rfl, rfl⟩
  obtain ⟨exports, hlists⟩ := h.lists.write hid hwritten
  have hagain : prepareExport textDigest narrowLimits exportInstant lastTwo
      (some (root.writeExport content metadata)) = .ok (content, metadata) :=
    (prepareExport_congr hsame).trans hprepared
  refine ⟨⟨some (root.writeExport content metadata), state, exports,
    (reconstruct_congr hsame).trans (reconstruct_eq_ok.mpr h.reads), listExports_eq_ok.mpr hlists⟩,
    h.earliest, h.exportable, ⟨metadata, createExport_existing hagain hid hwritten⟩,
    exportsRange isSha256_textDigest _ _ _ ?_⟩
  -- the export that is in the directory is the one that is made
  intro root' content' metadata' stored hroot hprepared' hstored _
  obtain rfl := Option.some.inj hroot
  obtain ⟨rfl, rfl⟩ := Prod.mk.inj (Except.ok.inj (hagain.symm.trans hprepared'))
  rw [Root.writeExport, Lib.Directory.get?_write, if_pos rfl] at hstored
  exact (Option.some.inj hstored).symm

end AtlasManager.EventHistory
