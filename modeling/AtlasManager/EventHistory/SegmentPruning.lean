import AtlasManager.EventHistory.ExportPruning

/-!
# AtlasManager.EventHistory.SegmentPruning

What `pruneSegments` removes.

* `removedSegments_eq` -- the loop of the source is `removedFront`;
* `Reconstructs.split` -- the sealed segments behind others are read behind what these leave;
* `valid_anchor` -- the anchor that is appended to the ledger passes its check;
* `readRetentionAnchor_open` -- behind a line that is not ended it cannot be read.
-/

namespace AtlasManager.EventHistory

open AtlasManager.Lib AtlasManager.Lib.Rfc8259 AtlasManager.Backup

variable {sha256 : Text → String} {limits : HistoryLimits}

/-! ## The segments to be removed -/

/-- Is a segment past its age limit? -/
def isOldSegment (cutoff : Int) (segment : SealedSegment) : Bool := segment.manifest.sealedAt.ms < cutoff

theorem removedSegments_eq (policy : EventHistoryRetentionPolicy) (cutoff : Int) {total removed : Nat}
    {items : List SealedSegment} (htotal : total = removed + items.length) :
    removedSegments policy cutoff total removed items =
      removedFront policy.minSealedSegments policy.maxSealedSegments (isOldSegment cutoff) items := by
  induction items generalizing removed with
  | nil => rfl
  | cons item rest ih =>
      rw [List.length_cons] at htotal
      have hcount : total - removed = rest.length + 1 := by omega
      rw [removedSegments, removedFront, ih (by omega), hcount, isRemovable, isOldSegment]
      by_cases hle : rest.length + 1 ≤ policy.minSealedSegments
      · rw [if_pos hle, decide_eq_false (Nat.not_lt.mpr hle), Bool.false_and, if_neg (by simp)]
      · rw [if_neg hle, decide_eq_true (Nat.lt_of_not_le hle), Bool.true_and]
        dsimp only
        cases decide (policy.maxSealedSegments < rest.length + 1) with
        | true => rfl
        | false =>
            cases decide (item.manifest.sealedAt.ms < cutoff) with
            | true => rfl
            | false => rfl

/-! ## The history behind removed segments -/

section Split

variable {root : Root} {state : Reconstruction} {removed kept : List SealedSegment}

theorem nodup_segmentNames (root : Root) : (segmentNames root).Nodup :=
  (perm_sortBy root.segments.names).nodup_iff.mpr root.segments.nodup

/-- The sealed segments behind others are read behind what these leave. -/
structure Split (sha256 : Text → String) (root : Root) (state : Reconstruction)
    (removed kept : List SealedSegment) : Prop where
  sealed : state.sealed = removed ++ kept
  front : ReadsSegments sha256 state.start (removed.map SealedSegment.name) removed
  back : readSegments sha256 root (state.start.behind removed) (kept.map SealedSegment.name) = .ok kept

theorem Reconstructs.split (h : Reconstructs sha256 limits root state)
    (hsealed : state.sealed = removed ++ kept) : Split sha256 root state removed kept := by
  have hread := h.segments
  have hnames := (readSegments_ok hread).names
  rw [hsealed, List.map_append] at hnames
  rw [← hnames, hsealed] at hread
  obtain ⟨front, back, hfront, hback, happend⟩ := readSegments_append.mp hread
  have hlength : removed.length = front.length := by
    have hlengths := congrArg List.length (readSegments_ok hfront).names
    rw [List.length_map, List.length_map] at hlengths
    exact hlengths.symm
  obtain ⟨hremoved, hkept⟩ := List.append_inj happend hlength
  rw [← hremoved] at hfront hback
  rw [← hkept] at hback
  exact ⟨hsealed, readSegments_ok hfront, hback⟩

theorem segmentNames_without (h : Reconstructs sha256 limits root state)
    (hsealed : state.sealed = removed ++ kept) (anchor : EventHistoryRetentionAnchor) :
    segmentNames (root.removeSegments anchor (removed.map SealedSegment.name)) =
      kept.map SealedSegment.name := by
  have hnames := (readSegments_ok h.segments).names
  rw [hsealed] at hnames
  have hnodup : ((removed ++ kept).map SealedSegment.name).Nodup := by
    rw [hnames]
    exact nodup_segmentNames root
  have hinj : ∀ a ∈ root.segments.names, ∀ b ∈ root.segments.names, a.key = b.key → a = b := by
    intro a _ b _ hab
    have hpair := Prod.mk.inj (toLex_inj.mp hab)
    cases a
    cases b
    simp_all
  rw [segmentNames, Root.removeSegments, Lib.Directory.names_without, sortBy_filter hinj]
  rw [segmentNames] at hnames
  rw [← hnames, List.filter_map]
  exact congrArg _ (filter_removed_keys (.refl _) (List.sublist_append_right removed kept) hnodup)

theorem readSegments_head {chain : Chain} {names : List SegmentName} {segments : List SealedSegment}
    (h : readSegments sha256 root chain names = .ok segments) {segment : SealedSegment}
    (hhead : segments.head? = some segment) : ReadsSegment sha256 chain segment.name segment := by
  cases names with
  | nil =>
      rw [readSegments, Except.ok.injEq] at h
      rw [← h] at hhead
      cases hhead
  | cons name names =>
      rw [readSegments] at h
      obtain ⟨first, hfirst, h⟩ := bind_ok.mp h
      obtain ⟨rest, -, h⟩ := bind_ok.mp h
      obtain rfl := Except.ok.inj h
      obtain rfl := Option.some.inj hhead
      have hreads := readSegment_ok hfirst
      rw [hreads.name]
      exact hreads

/-- The events that the manifests of segments count. -/
theorem ReadsSegments.sum_eventCount {chain : Chain} {names : List SegmentName}
    {segments : List SealedSegment} (h : ReadsSegments sha256 chain names segments) :
    (segments.map (·.manifest.eventCount)).sum = (segments.flatMap SealedSegment.records).length := by
  rw [List.length_flatMap]
  exact congrArg _ (List.map_congr_left fun segment hsegment => (h.manifests segment hsegment).2)

theorem ReadsSegments.length_le_sum {chain : Chain} {names : List SegmentName}
    {segments : List SealedSegment} (h : ReadsSegments sha256 chain names segments) :
    segments.length ≤ (segments.map (·.manifest.eventCount)).sum := by
  have hcounts : ∀ count ∈ segments.map (·.manifest.eventCount), 1 ≤ count := by
    rw [List.forall_mem_map]
    intro segment hsegment
    have hcount := (h.manifests segment hsegment).1.eventCount
    omega
  have hle := List.length_le_sum_of_one_le _ hcounts
  rwa [List.length_map] at hle

theorem Reconstructs.latest_bounds (h : Reconstructs sha256 limits root state)
    (hne : state.records ≠ []) : 1 ≤ state.latestSequence ∧ state.latestSequence < 2 ^ 53 := by
  have hlast := List.getLast?_eq_some_getLast hne
  rw [Reconstruction.latestSequence, hlast]
  exact (h.linked.valid _ (List.mem_of_getLast? hlast)).sequence_bounds

/-- What is removed is no more than there is. -/
theorem Split.counts (hsplit : Split sha256 root state removed kept)
    (h : Reconstructs sha256 limits root state) (hne : removed ≠ []) :
    1 ≤ removed.length ∧ removed.length ≤ (removed.map (·.manifest.eventCount)).sum ∧
      (removed.map (·.manifest.eventCount)).sum ≤ state.latestSequence ∧
      state.latestSequence < 2 ^ 53 := by
  have hcount := hsplit.front.sum_eventCount
  have hlength := hsplit.front.length_le_sum
  have hremoved := List.length_pos_iff.mpr hne
  have hrecords : (removed.flatMap SealedSegment.records).length ≤ state.records.length := by
    rw [Reconstruction.records, hsplit.sealed, List.flatMap_append, List.length_append,
      List.length_append]
    omega
  have hpos := h.start_pos
  have hlatest := h.latest_eq
  have hlt := h.latest_bounds (by
    intro hempty
    rw [hempty, List.length_nil] at hrecords
    omega)
  omega

theorem isSha256_anchorHash {latest : Option EventHistoryRetentionAnchor}
    (h : readRetentionAnchor sha256 root = .ok latest) : isSha256 (anchorHash latest) = true := by
  cases latest with
  | none => exact isSha256_genesisHash
  | some anchor => exact (valid_of_readRetentionAnchor h).retentionRecordSha256

/-- The record that the first segment to be kept begins with. -/
theorem Split.find_nextFirstRecord (h : Reconstructs sha256 limits root state)
    (hsplit : Split sha256 root state removed kept) {next : SealedSegment}
    (hnext : kept.head? = some next) :
    ∃ record, (state.records.find? fun record => record.sequence = next.manifest.firstSequence) =
        some record ∧ record.Valid sha256 ∧
      record.previousRecordSha256 = (state.start.behind removed).previousRecord := by
  have hreads := readSegments_head hsplit.back hnext
  obtain ⟨record, hrecord⟩ := Option.isSome_iff_exists.mp (List.isSome_head?.mpr hreads.records_ne)
  have hmem : record ∈ state.records := by
    rw [Reconstruction.records, hsplit.sealed, List.flatMap_append]
    have hsegment := List.mem_flatMap_of_mem (List.mem_of_head? hnext) (List.mem_of_head? hrecord)
    simp [hsegment]
  have hfound := h.linked.find?_sequence hmem
  rw [hreads.linked.head_sequence hrecord, ← hreads.firstSequence] at hfound
  exact ⟨record, hfound, h.linked.valid record hmem, hreads.linked.previous record hrecord⟩

/-! ## The anchor -/

/-- **The anchor that is written** passes its check, and the segments that stay follow it. -/
theorem Split.valid_anchor (hsha256 : ∀ text, isSha256 (sha256 text) = true)
    (h : Reconstructs sha256 limits root state) (hsplit : Split sha256 root state removed kept)
    {first last next : SealedSegment} (hfirst : removed.head? = some first)
    (hlast : removed.getLast? = some last) (hnext : kept.head? = some next)
    {record : EventHistoryRecord} (hrecord : record.Valid sha256)
    (hprevious : record.previousRecordSha256 = (state.start.behind removed).previousRecord)
    {previous : String} (hhash : isSha256 previous = true) (now : Timestamp) :
    ((unsignedAnchor state first last next removed record previous now).sign sha256).Valid sha256 ∧
      Chain.ofAnchor (some ((unsignedAnchor state first last next removed record previous now).sign
        sha256)) = state.start.behind removed := by
  have hreads := readSegments_head hsplit.back hnext
  have hbehind : state.start.behind removed = .after last.manifest := by rw [Chain.behind, hlast]
  have hsequence : next.manifest.firstSequence = last.manifest.lastSequence + 1 := by
    rw [hreads.firstSequence, hbehind]
    rfl
  have hfront := hsplit.front
  have hfirstManifest := (hfront.manifests first (List.mem_of_head? hfirst)).1
  have hlastManifest := (hfront.manifests last (List.mem_of_getLast? hlast)).1
  have hnextManifest := hreads.manifest
  refine ⟨?_, ?_⟩
  · have hhead : ReadsSegment sha256 state.start first.name first := readSegments_head h.segments (by
      rw [hsplit.sealed, List.head?_append, hfirst, Option.some_or])
    obtain ⟨hlength, hle, hsum, hlt⟩ := hsplit.counts h (List.ne_nil_of_mem (List.mem_of_head? hfirst))
    have hcount := hfront.sum_eventCount
    have hfirstSequence := hhead.firstSequence
    have hlastSequence := hfront.expected
    rw [hbehind, Chain.after] at hlastSequence
    exact {
      retentionSequence := by
        show 1 ≤ state.latestSequence ∧ state.latestSequence < 2 ^ 53
        omega
      removedFirstSequence := hfirstManifest.firstSequence
      removedLastSequence := hlastManifest.lastSequence
      removedEventCount := by
        show 1 ≤ (removed.map (·.manifest.eventCount)).sum ∧
          (removed.map (·.manifest.eventCount)).sum < 2 ^ 53
        omega
      removedSegmentCount := by
        show 1 ≤ removed.length ∧ removed.length < 2 ^ 53
        omega
      nextRetainedSequence := hnextManifest.firstSequence
      first_le_last := by
        show first.manifest.firstSequence ≤ last.manifest.lastSequence
        dsimp only at hlastSequence
        omega
      next := hsequence
      removedFirstRecordSha256 := hfirstManifest.firstRecordSha256
      removedLastRecordSha256 := hlastManifest.lastRecordSha256
      removedSegmentChainHead := hlastManifest.manifestSha256
      nextRetainedPreviousRecordSha256 := hrecord.previousRecordSha256
      previousRetentionRecordSha256 := hhash
      retentionRecordSha256 := hsha256 _
      hash := rfl }
  · rw [Chain.ofAnchor, hbehind]
    rw [hbehind] at hprevious
    show Chain.mk next.manifest.firstSequence record.previousRecordSha256 last.manifest.manifestSha256 = _
    rw [hprevious, hsequence]
    rfl

/-! ## The history without them -/

/-- What is read of a history after segments were removed. -/
def Reconstruction.behind (state : Reconstruction) (removed kept : List SealedSegment) : Reconstruction :=
  { state with
    start := state.start.behind removed
    sealed := kept
    retentionAnchorPresent := state.retentionAnchorPresent || !removed.isEmpty }

/-- **The segments that stay are read**, and the active segment behind them, once the anchor can be
read. -/
theorem Reconstructs.removeSegments (h : Reconstructs sha256 limits root state)
    (hsplit : Split sha256 root state removed kept) (hne : removed ≠ [])
    {anchor : EventHistoryRetentionAnchor}
    (hchain : Chain.ofAnchor (some anchor) = state.start.behind removed)
    (hread : readRetentionAnchor sha256
      (root.removeSegments anchor (removed.map SealedSegment.name)) = .ok (some anchor)) :
    Reconstructs sha256 limits (root.removeSegments anchor (removed.map SealedSegment.name))
      (state.behind removed kept) := by
  have hsame : (state.behind removed kept).chain = state.chain := by
    rw [Reconstruction.chain, Reconstruction.chain, hsplit.sealed, behind_append]
    rfl
  have hactive := h.active
  have hfollows := h.follows
  rw [← hsame] at hactive hfollows
  exact {
    fault := h.fault
    transaction := h.transaction
    wellFormed := by
      have hnames := h.wellFormed
      rw [List.all_eq_true] at hnames ⊢
      intro name hname
      rw [Root.removeSegments, Lib.Directory.names_without, Lib.Directory.names_without,
        ← List.filter_append, List.mem_filter] at hname
      exact hnames name hname.1
    anchor := ⟨some anchor, hread, hchain.symm, by simp [Reconstruction.behind, hne]⟩
    segments := by
      rw [segmentNames_without h hsplit.sealed]
      refine (readSegments_congr fun name hname => ?_).trans hsplit.back
      have hstays : name ∉ removed.map SealedSegment.name := by
        have hnodup := nodup_segmentNames root
        rw [← (readSegments_ok h.segments).names, hsplit.sealed, List.map_append] at hnodup
        exact List.disjoint_right.mp (List.disjoint_of_nodup_append hnodup) hname
      rw [Root.removeSegments, Lib.Directory.get?_without, Lib.Directory.get?_without, if_neg hstays,
        if_neg hstays]
      exact ⟨rfl, rfl⟩
    active := hactive
    activeEvents := h.activeEvents
    activeBytes := h.activeBytes
    follows := hfollows }

end Split

/-! ## A ledger whose last line is not ended -/

section Ledger

variable {root : Root}

theorem exists_canonicalJson_obj (fields : Fields) :
    ∃ rest, canonicalJson (.obj fields) = unit '{' :: rest := by
  rw [canonicalJson, sortJson, treeOf, Tree.write]
  exact ⟨_, rfl⟩

/-- A line of an anchor is none any more with a further record behind it. -/
theorem readAnchor_append {line : Text} {anchor : EventHistoryRetentionAnchor}
    (h : readAnchor sha256 line = .ok anchor) (fields : Fields) (other : EventHistoryRetentionAnchor) :
    readAnchor sha256 (line ++ canonicalJson (.obj fields)) ≠ .ok other := by
  have hparse : ∀ text value, decode text = .ok value → ∃ parsed, Config.parseStrictJson text = .ok parsed := by
    intro text value hdecode
    rw [decode] at hdecode
    cases hparsed : Config.parseStrictJson text with
    | error code => simp [hparsed] at hdecode
    | ok parsed => exact ⟨parsed, rfl⟩
  intro hother
  obtain ⟨value, hvalue, -⟩ := bind_ok.mp (readAnchor_eq_ok.mp h)
  obtain ⟨value', hvalue', -⟩ := bind_ok.mp (readAnchor_eq_ok.mp hother)
  obtain ⟨parsed, hparsed⟩ := hparse _ _ hvalue
  obtain ⟨parsed', hparsed'⟩ := hparse _ _ hvalue'
  obtain ⟨rest, hrest⟩ := exists_canonicalJson_obj fields
  rw [hrest] at hparsed'
  refine Config.parse_append_ne_ok hparsed ?_ ?_ parsed' hparsed'
  · rw [Config.skipWhitespace_cons (by decide)]
    simp
  · exact Config.endsNumber_cons (by decide) rest

/-- **An anchor behind an open line** leaves a ledger that cannot be read. -/
theorem readRetentionAnchor_open {latest : Option EventHistoryRetentionAnchor}
    (h : readRetentionAnchor sha256 root = .ok latest) (hopen : ¬ IsEnded 0x0A (root.ledger.getD []))
    {fields : Fields} {root' : Root}
    (hroot : root'.ledger = some (root.ledger.getD [] ++ jsonLine fields))
    (other : Option EventHistoryRetentionAnchor) : readRetentionAnchor sha256 root' ≠ .ok other := by
  obtain ⟨front, line, htext, hended, hne, hline⟩ := exists_openLine hopen
  obtain ⟨anchors, hanchors, -⟩ := readRetentionAnchor_eq_ok.mp h
  rw [htext, lines_append hended, lines_openLine hne hline] at hanchors
  obtain ⟨a, b, -, hb, -⟩ := readAnchors_append.mp hanchors
  obtain ⟨anchor, hanchor, -, -⟩ := readAnchors_singleton.mp hb
  intro hother
  obtain ⟨anchors', hanchors', -⟩ := readRetentionAnchor_eq_ok.mp hother
  have hglued : (0x0A : CodeUnit) ∉ line ++ canonicalJson (.obj fields) := by
    rw [List.mem_append, not_or]
    exact ⟨hline, lineFeed_not_mem_canonicalJson _⟩
  rw [hroot, Option.getD_some, htext, jsonLine, List.append_assoc, lines_append hended,
    ← List.append_assoc, lines_singleton (by simp [hne]) hglued] at hanchors'
  obtain ⟨a', b', -, hb', -⟩ := readAnchors_append.mp hanchors'
  obtain ⟨anchor', hanchor', -, -⟩ := readAnchors_singleton.mp hb'
  exact readAnchor_append hanchor fields anchor' hanchor'

end Ledger

/-! ## A run -/

section Run

variable {root : Root} {state : Reconstruction} {policy : EventHistoryRetentionPolicy} {now : Timestamp}

theorem pruneSegments_unchanged {disk : Option Root} (hread : reconstruct sha256 limits disk = .ok state)
    (hpolicy : readPolicy limits disk = .ok policy)
    (hnone : removedFront policy.minSealedSegments policy.maxSealedSegments
      (isOldSegment (ageCutoff now policy.maxSealedSegmentAgeDays)) state.sealed = []) :
    pruneSegments sha256 limits now disk = (.ok ⟨.unchanged, 0, 0⟩, disk) := by
  simp only [pruneSegments, hread, hpolicy,
    removedSegments_eq policy _ (Nat.zero_add state.sealed.length).symm, hnone]
  cases disk <;> rfl

/-- **Segments are removed**, and an anchor for them is appended to the ledger. -/
theorem pruneSegments_pruned (hsha256 : ∀ text, isSha256 (sha256 text) = true)
    (h : Reconstructs sha256 limits root state) (hpolicy : readPolicy limits (some root) = .ok policy)
    {removed kept : List SealedSegment}
    (hremoved : removedFront policy.minSealedSegments policy.maxSealedSegments
      (isOldSegment (ageCutoff now policy.maxSealedSegmentAgeDays)) state.sealed = removed)
    (hsealed : state.sealed = removed ++ kept) (hne : removed ≠ []) (hkept : kept ≠ []) :
    ∃ anchor, anchor.Valid sha256 ∧ Chain.ofAnchor (some anchor) = state.start.behind removed ∧
      (∃ latest, readRetentionAnchor sha256 root = .ok latest ∧
        anchor.previousRetentionRecordSha256 = anchorHash latest) ∧
      pruneSegments sha256 limits now (some root) =
        (.ok ⟨.pruned, removed.length, (removed.flatMap SealedSegment.records).length⟩,
          some (root.removeSegments anchor (removed.map SealedSegment.name))) := by
  have hsplit := h.split hsealed
  obtain ⟨first, hfirst⟩ : ∃ first, removed.head? = some first := ⟨_, List.head?_eq_some_head hne⟩
  have hlast := List.getLast?_eq_some_getLast hne
  obtain ⟨next, hnext⟩ : ∃ next, kept.head? = some next := ⟨_, List.head?_eq_some_head hkept⟩
  obtain ⟨record, hfound, hvalid, hprevious⟩ := hsplit.find_nextFirstRecord h hnext
  obtain ⟨latest, hlatest, -, -⟩ := h.anchor
  obtain ⟨hanchor, hchain⟩ := hsplit.valid_anchor hsha256 h hfirst hlast hnext hvalid hprevious
    (isSha256_anchorHash hlatest) now
  refine ⟨_, hanchor, hchain, ⟨latest, hlatest, rfl⟩, ?_⟩
  have hat : state.sealed[removed.length]? = some next := by
    rw [hsealed, List.getElem?_append_right le_rfl, Nat.sub_self, ← List.head?_eq_getElem?, hnext]
  simp only [pruneSegments, reconstruct_eq_ok.mpr h, hpolicy,
    removedSegments_eq policy _ (Nat.zero_add state.sealed.length).symm, hremoved, hfirst, hlast, hat,
    retentionAnchorHash_eq hlatest, hfound, ← hsplit.front.sum_eventCount]
  rfl

end Run

end AtlasManager.EventHistory
