import AtlasManager.EventHistory.HistoryOperations
import AtlasManager.EventHistory.HistoryExports

/-!
# AtlasManager.EventHistory.HistoryRotation

How the active segment is sealed.

* `parseSegmentManifest_written` -- a manifest is read as it was written;
* `readSegment_sealActive` -- a segment that was sealed is read with the records that were active;
* `rotateOne_rotated` -- **a rotation** leaves the same records, all of them sealed.
-/

namespace AtlasManager.EventHistory

open AtlasManager.Lib AtlasManager.Lib.Rfc8259 AtlasManager.Backup
open Json (IsFlat)

variable {sha256 : Text → String} {limits : HistoryLimits}

/-! ## Manifests that are written -/

section Manifests

variable {manifest : EventHistorySegmentManifest}

/-- A manifest that passes its check, its hash included. -/
structure EventHistorySegmentManifest.Signed (sha256 : Text → String)
    (manifest : EventHistorySegmentManifest) : Prop extends manifest.Valid where
  byteCount : manifest.byteCount < 2 ^ 53
  previousSegmentSha256 : isSha256 manifest.previousSegmentSha256 = true
  segmentContentSha256 : isSha256 manifest.segmentContentSha256 = true
  hash : sha256 (canonicalJson (.obj manifest.unsignedFields)) = manifest.manifestSha256

theorem isUnits_manifestNames : ∀ name ∈ manifestNames, IsUnits name := isUnits_of_all (by decide)

namespace EventHistorySegmentManifest.Signed

theorem eventCount_bounds (h : manifest.Signed sha256) :
    1 ≤ manifest.eventCount ∧ manifest.eventCount < 2 ^ 53 := by
  have hcount := h.eventCount
  have hfirst := h.firstSequence.1
  have hlast := h.lastSequence.2
  have hle := h.first_le_last
  omega

theorem isWritable_fields (h : manifest.Signed sha256) : IsWritable (.obj manifest.fields) := by
  refine ⟨by simp [fields, unsignedFields], fieldsAreWritable_iff.mpr fun f hf =>
    ⟨isUnits_manifestNames f.1 ?_, ?_⟩⟩
  · revert f hf
    simp [fields, unsignedFields, manifestNames]
  · revert f hf
    simp only [fields, unsignedFields, List.cons_append, List.nil_append, List.forall_mem_cons,
      List.not_mem_nil, false_implies, implies_true, and_true]
    exact ⟨isWritable_nat (by decide), isWritable_nat h.firstSequence.2, isWritable_nat h.lastSequence.2,
      isWritable_nat h.eventCount_bounds.2, isWritable_nat h.byteCount,
      isUnits_of_isSha256 h.firstRecordSha256, isUnits_of_isSha256 h.lastRecordSha256,
      isUnits_of_isSha256 h.previousSegmentSha256, isUnits_of_isSha256 h.segmentContentSha256,
      isUnits_timestamp _, isUnits_of_isSha256 h.manifestSha256⟩

theorem isFlat_fields (h : manifest.Signed sha256) : ∀ f ∈ manifest.fields, IsFlat f.2 := by
  simp only [fields, unsignedFields, List.cons_append, List.nil_append, List.forall_mem_cons,
    List.not_mem_nil, false_implies, implies_true, and_true]
  exact ⟨isFlat_nat (by decide), isFlat_nat h.firstSequence.2, isFlat_nat h.lastSequence.2,
    isFlat_nat h.eventCount_bounds.2, isFlat_nat h.byteCount, trivial, trivial, trivial, trivial, trivial,
    trivial⟩

end EventHistorySegmentManifest.Signed

/-- A record with the fields of a manifest is that manifest. -/
theorem parseSegmentManifest_of_sameFields (h : manifest.Signed sha256) {record : Fields}
    (hsame : SameFields record manifest.fields) (hlength : record.length = manifest.fields.length) :
    parseSegmentManifest sha256 (.obj record) = .ok manifest := by
  have hexact : hasExactFields record manifestNames = true := by
    rw [hsame.hasExactFields hlength]
    simp [hasExactFields, hasFieldOutside, EventHistorySegmentManifest.fields,
      EventHistorySegmentManifest.unsignedFields, manifestNames]
  have hrequired : requireExactRecord (.obj record) manifestNames = .ok record :=
    requireExactRecord_eq_ok.mpr ⟨rfl, hexact⟩
  have hread : ∀ name value, manifest.fields.lookup name = some value → field record name = value := by
    intro name value hlookup
    rw [hsame.field, field_of_lookup hlookup]
  simp only [parseSegmentManifest, hrequired, bind, Except.bind, hread "schemaVersion" _ rfl,
    hread "firstSequence" _ rfl, hread "lastSequence" _ rfl, hread "eventCount" _ rfl,
    hread "byteCount" _ rfl, hread "firstRecordSha256" _ rfl, hread "lastRecordSha256" _ rfl,
    hread "previousSegmentSha256" _ rfl, hread "segmentContentSha256" _ rfl,
    hread "manifestSha256" _ rfl, hread "sealedAt" _ rfl, positiveInteger?_nat h.firstSequence,
    positiveInteger?_nat h.lastSequence, positiveInteger?_nat h.eventCount_bounds,
    nonNegativeInteger?_nat h.byteCount, JsValue.timestamp?_text, assertHash_str h.firstRecordSha256,
    assertHash_str h.lastRecordSha256, assertHash_str h.previousSegmentSha256,
    assertHash_str h.segmentContentSha256, assertHash_str h.manifestSha256]
  rw [if_neg, if_neg]
  · exact not_not.mpr h.hash
  · simp [h.eventCount, h.first_le_last]

/-- **A manifest is read** as it was written. -/
theorem parseSegmentManifest_written (h : manifest.Signed sha256) :
    decode (jsonLine manifest.fields) >>= parseSegmentManifest sha256 = .ok manifest := by
  have hblanks : Ws [0x0A] [] := .cons (by decide) .nil
  obtain ⟨record, hrecord, hsame, hlength⟩ :=
    decode_canonicalJson h.isWritable_fields h.isFlat_fields hblanks
  rw [jsonLine, hrecord]
  exact parseSegmentManifest_of_sameFields h hsame hlength

/-- What is checked of a manifest before it is signed. -/
theorem createSegmentManifest_signed (hsha256 : ∀ text, isSha256 (sha256 text) = true)
    {input : EventHistorySegmentManifest}
    (hfirst : 1 ≤ input.firstSequence ∧ input.firstSequence < 2 ^ 53)
    (hlast : 1 ≤ input.lastSequence ∧ input.lastSequence < 2 ^ 53)
    (hle : input.firstSequence ≤ input.lastSequence)
    (hcount : input.eventCount = input.lastSequence - input.firstSequence + 1)
    (hbytes : input.byteCount < 2 ^ 53) (hfirstRecord : isSha256 input.firstRecordSha256 = true)
    (hlastRecord : isSha256 input.lastRecordSha256 = true)
    (hprevious : isSha256 input.previousSegmentSha256 = true)
    (hcontent : isSha256 input.segmentContentSha256 = true) :
    createSegmentManifest sha256 input = .ok (input.sign sha256) ∧ (input.sign sha256).Signed sha256 := by
  refine ⟨?_, ?_⟩
  · rw [createSegmentManifest, validateManifestInput, if_neg]
    · simp only [assertHash_str hfirstRecord, assertHash_str hlastRecord, assertHash_str hprevious,
        assertHash_str hcontent]
      rfl
    · simp [isPositiveInteger]
      omega
  · exact {
      firstSequence := hfirst
      lastSequence := hlast
      first_le_last := hle
      eventCount := hcount
      firstRecordSha256 := hfirstRecord
      lastRecordSha256 := hlastRecord
      manifestSha256 := hsha256 _
      byteCount := hbytes
      previousSegmentSha256 := hprevious
      segmentContentSha256 := hcontent
      hash := rfl }

end Manifests

/-! ## The segment that is sealed -/

section Rotation

variable {root : Root} {state : Reconstruction} {now : Timestamp}

theorem Reconstructs.linked_active (h : Reconstructs sha256 limits root state) :
    Linked sha256 state.chain.previousRecord state.chain.expectedSequence state.activeRecords := by
  have hfollows := h.follows
  refine parseRecords_ok h.active fun record hrecord => ?_
  cases hactive : state.activeRecords with
  | nil => simp [hactive] at hrecord
  | cons first rest =>
      rw [hactive, EventHistory.follows, Bool.and_eq_true, decide_eq_true_eq] at hfollows
      rw [hactive, List.head?_cons, Option.mem_some_iff] at hrecord
      rw [← hrecord]
      exact hfollows.1

/-- The numbers in the names of segments grow. -/
theorem readSegments_name_lt {chain : Chain} {names : List SegmentName} {segments : List SealedSegment}
    (h : readSegments sha256 root chain names = .ok segments) :
    chain.expectedSequence ≤ (chain.behind segments).expectedSequence ∧
      ∀ name ∈ names, name.first < (chain.behind segments).expectedSequence := by
  induction names generalizing chain segments with
  | nil =>
      rw [readSegments, Except.ok.injEq] at h
      rw [← h]
      exact ⟨le_rfl, by simp⟩
  | cons name names ih =>
      rw [readSegments] at h
      obtain ⟨segment, hsegment, h⟩ := bind_ok.mp h
      obtain ⟨rest, hrest, h⟩ := bind_ok.mp h
      obtain rfl := Except.ok.inj h
      have hreads := readSegment_ok hsegment
      obtain ⟨hle, hnames⟩ := ih hrest
      have hafter : (Chain.after segment.manifest).expectedSequence = segment.manifest.lastSequence + 1 :=
        rfl
      have hlast := hreads.lastSequence
      have hlength := List.length_pos_iff.mpr hreads.records_ne
      have hname : name.first = chain.expectedSequence := by rw [hreads.named, hreads.firstSequence]
      rw [behind_cons, List.forall_mem_cons]
      exact ⟨by omega, by omega, hnames⟩

/-- The segment that the active one becomes. -/
def sealedSegment (state : Reconstruction) (manifest : EventHistorySegmentManifest) : SealedSegment where
  name := ⟨manifest.firstSequence, manifest.lastSequence⟩
  manifest
  records := state.activeRecords

def Reconstruction.sealActive (state : Reconstruction) (manifest : EventHistorySegmentManifest) :
    Reconstruction :=
  { state with sealed := state.sealed ++ [sealedSegment state manifest], activeRecords := [] }

theorem Reconstruction.records_sealActive (state : Reconstruction)
    (manifest : EventHistorySegmentManifest) : (state.sealActive manifest).records = state.records := by
  simp [records, sealActive, sealedSegment]

theorem lastSegmentSha256_eq (state : Reconstruction) :
    state.lastSegmentSha256 = state.chain.previousSegment := rfl

theorem isSha256_chain (h : Reconstructs sha256 limits root state) :
    isSha256 state.chain.previousSegment = true := by
  have hread := readSegments_ok h.segments
  rw [Reconstruction.chain, Chain.behind]
  cases hlast : state.sealed.getLast? with
  | some segment => exact (hread.manifests segment (List.mem_of_getLast? hlast)).1.manifestSha256
  | none =>
      obtain ⟨latest, hlatest, hstart, -⟩ := h.anchor
      dsimp only
      rw [hstart]
      cases latest with
      | none => exact isSha256_genesisHash
      | some anchor => exact (valid_of_readRetentionAnchor hlatest).removedSegmentChainHead

/-- The manifest of an active segment that is not empty. -/
theorem signed_unsignedManifest (hsha256 : ∀ text, isSha256 (sha256 text) = true)
    (h : Reconstructs sha256 limits root state) (hbytes : limits.maxSegmentBytes < 2 ^ 53)
    {first last : EventHistoryRecord} (hfirst : state.activeRecords.head? = some first)
    (hlast : state.activeRecords.getLast? = some last) (now : Timestamp) :
    let input := unsignedManifest sha256 state first last (root.active.getD []) now
    createSegmentManifest sha256 input = .ok (input.sign sha256) ∧
      (input.sign sha256).Signed sha256 := by
  have hlinked := h.linked_active
  have hfirstValid := hlinked.valid first (List.mem_of_head? hfirst)
  have hlastValid := hlinked.valid last (List.mem_of_getLast? hlast)
  have hsequence := hlinked.head_sequence hfirst
  have hsequence' := hlinked.last_sequence hlast
  have hlength : 0 < state.activeRecords.length :=
    List.length_pos_iff.mpr (List.ne_nil_of_mem (List.mem_of_head? hfirst))
  have hactive := h.activeBytes
  refine createSegmentManifest_signed hsha256 hfirstValid.sequence_bounds hlastValid.sequence_bounds
    ?_ ?_ ?_ hfirstValid.recordSha256 hlastValid.recordSha256 ?_ (hsha256 _)
  · show first.sequence ≤ last.sequence
    omega
  · show state.activeRecords.length = last.sequence - first.sequence + 1
    omega
  · show byteLength (root.active.getD []) < 2 ^ 53
    omega
  · exact isSha256_chain h

theorem readSegment_sealActive (h : Reconstructs sha256 limits root state)
    {first last : EventHistoryRecord} (hfirst : state.activeRecords.head? = some first)
    (hlast : state.activeRecords.getLast? = some last) {manifest : EventHistorySegmentManifest}
    (hmanifest : manifest =
      (unsignedManifest sha256 state first last (root.active.getD []) now).sign sha256)
    (hsigned : manifest.Signed sha256) :
    readSegment sha256 (root.sealActive ⟨first.sequence, last.sequence⟩ (root.active.getD []) manifest)
      state.chain ⟨first.sequence, last.sequence⟩ = .ok (sealedSegment state manifest) := by
  have hlinked := h.linked_active
  have hbytes : (root.sealActive ⟨first.sequence, last.sequence⟩ (root.active.getD []) manifest).segments.get?
      ⟨first.sequence, last.sequence⟩ = some (root.active.getD []) := by
    rw [Root.sealActive, Lib.Directory.get?_write, if_pos rfl]
  have htext : (root.sealActive ⟨first.sequence, last.sequence⟩ (root.active.getD []) manifest).manifests.get?
      ⟨first.sequence, last.sequence⟩ = some (jsonLine manifest.fields) := by
    rw [Root.sealActive, Lib.Directory.get?_write, if_pos rfl]
  have hname : sealedSegment state manifest =
      ⟨⟨first.sequence, last.sequence⟩, manifest, state.activeRecords⟩ := by
    rw [sealedSegment, hmanifest]
    rfl
  have hagrees : agrees sha256 state.chain (root.active.getD []) manifest state.activeRecords = true := by
    rw [agrees, hfirst, hlast, hmanifest]
    simp only [hlinked.head_sequence hfirst, hlinked.previous first hfirst, unsignedManifest,
      EventHistorySegmentManifest.sign, lastSegmentSha256_eq, decide_true, Bool.and_self]
  simp only [readSegment, hbytes, htext]
  refine bind_ok.mpr ⟨manifest, parseSegmentManifest_written hsigned, ?_⟩
  refine bind_ok.mpr ⟨state.activeRecords, h.active, ?_⟩
  rw [hagrees, if_neg (by simp), if_neg, hname]
  rw [hmanifest]
  exact not_not.mpr rfl

/-- **The history after the active segment was sealed.** -/
theorem Reconstructs.sealActive (h : Reconstructs sha256 limits root state)
    {first last : EventHistoryRecord} (hfirst : state.activeRecords.head? = some first)
    (hlast : state.activeRecords.getLast? = some last) {manifest : EventHistorySegmentManifest}
    (hmanifest : manifest =
      (unsignedManifest sha256 state first last (root.active.getD []) now).sign sha256)
    (hsigned : manifest.Signed sha256) :
    Reconstructs sha256 limits
      (root.sealActive ⟨first.sequence, last.sequence⟩ (root.active.getD []) manifest)
      (state.sealActive manifest) := by
  have hread := readSegment_sealActive h hfirst hlast hmanifest hsigned
  have hlinked := h.linked_active
  have hexpected : first.sequence = state.chain.expectedSequence := hlinked.head_sequence hfirst
  obtain ⟨-, hlt⟩ := readSegments_name_lt h.segments
  have hkeys : ∀ name ∈ root.segments.names,
      name.key < SegmentName.key ⟨first.sequence, last.sequence⟩ := by
    intro name hname
    have hfirstLt := hlt name ((perm_sortBy _).mem_iff.mpr hname)
    rw [SegmentName.key, SegmentName.key, Prod.Lex.toLex_lt_toLex]
    refine .inl ?_
    show name.first < first.sequence
    rw [hexpected]
    exact hfirstLt
  have hnew : (⟨first.sequence, last.sequence⟩ : SegmentName) ∉ root.segments.names := fun hmem =>
    lt_irrefl _ (hkeys _ hmem)
  have hnames : segmentNames
      (root.sealActive ⟨first.sequence, last.sequence⟩ (root.active.getD []) manifest) =
        segmentNames root ++ [⟨first.sequence, last.sequence⟩] := by
    rw [segmentNames, Root.sealActive, Lib.Directory.names_write_of_not_mem _ hnew,
      sortBy_cons_of_lt hkeys]
    rfl
  exact {
    fault := h.fault
    transaction := h.transaction
    wellFormed := by
      have hformed := h.wellFormed
      have hfirstBounds := (hlinked.valid first (List.mem_of_head? hfirst)).sequence_bounds
      have hlastBounds := (hlinked.valid last (List.mem_of_getLast? hlast)).sequence_bounds
      rw [List.all_eq_true] at hformed ⊢
      intro name hname
      simp only [Root.sealActive, List.mem_append, Lib.Directory.mem_names_write] at hname
      by_cases hsame : name = ⟨first.sequence, last.sequence⟩
      · rw [hsame, SegmentName.isWellFormed, Bool.and_eq_true, decide_eq_true_eq, decide_eq_true_eq]
        dsimp only
        omega
      · refine hformed name (List.mem_append.mpr ?_)
        simpa [hsame] using hname
    anchor := h.anchor
    segments := by
      rw [hnames]
      refine readSegments_append.mpr ⟨state.sealed, [sealedSegment state manifest], ?_, ?_, rfl⟩
      · refine (readSegments_congr fun name hname => ?_).trans h.segments
        have hne : name ≠ ⟨first.sequence, last.sequence⟩ := fun heq =>
          hnew (heq ▸ (perm_sortBy _).mem_iff.mp hname)
        rw [Root.sealActive, Lib.Directory.get?_write, Lib.Directory.get?_write, if_neg hne, if_neg hne]
        exact ⟨rfl, rfl⟩
      · exact bind_ok.mpr ⟨_, hread, rfl⟩
    active := rfl
    activeEvents := Nat.zero_le _
    activeBytes := Nat.zero_le _
    follows := rfl }

theorem rotateOne_unchanged {disk : Option Root} (h : reconstruct sha256 limits disk = .ok state)
    (hempty : state.activeRecords = []) :
    rotateOne sha256 limits now disk = (.ok .unchanged, disk) := by
  simp only [rotateOne, h, hempty, List.head?_nil, List.getLast?_nil]

/-- **A rotation** seals the active segment, and the records stay as they are. -/
theorem rotateOne_rotated (hsha256 : ∀ text, isSha256 (sha256 text) = true)
    (h : Reconstructs sha256 limits root state) (hbytes : limits.maxSegmentBytes < 2 ^ 53)
    (hne : state.activeRecords ≠ []) (now : Timestamp) :
    ∃ name manifest, rotateOne sha256 limits now (some root) =
        (.ok .rotated, some (root.sealActive name (root.active.getD []) manifest)) ∧
      Reconstructs sha256 limits (root.sealActive name (root.active.getD []) manifest)
        (state.sealActive manifest) := by
  obtain ⟨first, hfirst⟩ : ∃ first, state.activeRecords.head? = some first :=
    ⟨_, List.head?_eq_some_head hne⟩
  have hlast := List.getLast?_eq_some_getLast hne
  obtain ⟨hcreate, hsigned⟩ := signed_unsignedManifest hsha256 h hbytes hfirst hlast now
  refine ⟨_, _, ?_, h.sealActive hfirst hlast rfl hsigned⟩
  simp only [rotateOne, reconstruct_eq_ok.mpr h, hfirst, hlast, ensureRoot_some h.fault, hcreate]

end Rotation

end AtlasManager.EventHistory
