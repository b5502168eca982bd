import AtlasManager.EventHistory.HistoryRecording
import AtlasManager.EventHistory.HistoryPruning
import AtlasManager.EventHistory.RetentionPolicyFile

/-!
# AtlasManager.EventHistory.HistoryRuns

Runs of the operations that write, on a history that begins without files.

* `Kept` -- the invariant of a history: what is read of it are the last ones of all records that were
  ever appended, and they are chained from the first one on;
* `Kept.perform` -- each operation keeps it;
* `runHistory_keeps` -- **after every run** the history is read, and its events are the last ones that
  were recorded;
* `record_runHistory` -- when a call to record succeeds;
* `readPolicy_runHistory` -- the policy is the last one that was set.
-/

namespace AtlasManager.EventHistory

open AtlasManager.Lib AtlasManager.Lib.Rfc8259 AtlasManager.Backup

variable {sha256 : Text → String} {limits : HistoryLimits}

/-! ## Inputs -/

/-- An input that was checked passes the check of an event, with any number. -/
theorem checked_of_input {value : JsValue} (hjs : IsJs value) {input : AdministrativeEventInput}
    (h : createAdministrativeEventInput value = .ok input) {n : Nat} (hn : 1 ≤ n ∧ n < 2 ^ 53) :
    Checked ⟨input, n⟩ := by
  cases value with
  | obj record =>
      obtain ⟨hnames, hreads⟩ := createAdministrativeEventInput_eq_ok.mp h
      obtain ⟨houtside, hlength⟩ := assertFields_eq_ok.mp hnames
      rw [hasFieldOutside_eq_false] at houtside
      have hother : ∀ name ∈ inputNames, name ≠ "sequence" := by decide
      have hnone : "sequence" ∉ record.map Prod.fst := fun hmem =>
        hother _ (houtside _ hmem) rfl
      refine ⟨.obj (("sequence", .num n) :: record), ?_, createAdministrativeEvent_eq_ok.mpr ⟨?_, ?_, ?_⟩⟩
      · rw [IsJs] at hjs ⊢
        rw [List.map_cons, List.nodup_cons]
        exact ⟨⟨hnone, hjs.1⟩, by decide, trivial, hjs.2⟩
      · rw [assertFields_eq_ok, hasFieldOutside_eq_false, List.map_cons, List.forall_mem_cons,
          List.length_cons]
        refine ⟨⟨.head _, fun name hname => .tail _ (houtside name hname)⟩, ?_⟩
        have hcount : (eventNames.filter (· ≠ "details")).length =
            (inputNames.filter (· ≠ "details")).length + 1 := by decide
        omega
      · exact ⟨by simp [field], hn⟩
      · refine hreads.congr (fun name hname => ?_) ?_
        · have hne : (name == "sequence") = false := by simpa using hother name hname
          rw [field, field, List.lookup_cons, hne]
        · simp [hasOwn, List.lookup]
  | _ => cases h

theorem isJs_withNumber {input : AdministrativeEventInput} {n : Nat} (h : Checked ⟨input, n⟩) (m : Nat) :
    IsJs (.obj (AdministrativeEvent.mk input m).fields) := by
  have hjs := isJs_of_isWritable (isWritable_fields h)
  exact ⟨AdministrativeEvent.nodup_names_fields _, hjs.2.1, trivial, hjs.2.2.2⟩

theorem isUnits_recoveredTexts : ∀ text ∈ ["sequence", "attemptId", "occurredAt", "source", "kind", "system",
    "actorId", "atlas-manager", "target", "machine", "id", "atlas", "operation",
    "recover_administrative_event_history_stale_lock", "status", "succeeded", "details", "outcome",
    "recovered"], IsUnits text := isUnits_of_all (by decide)

theorem isJs_recoveredInput {attemptId : String} (h : IsUnits attemptId) (now : Timestamp) (n : Nat) :
    IsJs (.obj (AdministrativeEvent.mk (recoveredInput attemptId now) n).fields) := by
  have hsource : IsJs (.obj (sourceFields ⟨.system, "atlas-manager"⟩)) :=
    ⟨by decide, isUnits_recoveredTexts _ (by decide), isUnits_recoveredTexts "system" (by decide),
      isUnits_recoveredTexts _ (by decide), isUnits_recoveredTexts "atlas-manager" (by decide), trivial⟩
  have htarget : IsJs (.obj targetFields) :=
    ⟨by decide, isUnits_recoveredTexts _ (by decide), isUnits_recoveredTexts "machine" (by decide),
      isUnits_recoveredTexts _ (by decide), isUnits_recoveredTexts "atlas" (by decide), trivial⟩
  have hdetails : IsJs (.obj [("outcome", .str "recovered")]) :=
    ⟨by decide, isUnits_recoveredTexts _ (by decide), isUnits_recoveredTexts "recovered" (by decide),
      trivial⟩
  exact ⟨AdministrativeEvent.nodup_names_fields _, isUnits_recoveredTexts "sequence" (by decide), trivial,
    isUnits_recoveredTexts "attemptId" (by decide), h, isUnits_recoveredTexts "occurredAt" (by decide),
    isUnits_timestamp now, isUnits_recoveredTexts "source" (by decide), hsource,
    isUnits_recoveredTexts "target" (by decide), htarget, isUnits_recoveredTexts "operation" (by decide),
    isUnits_recoveredTexts "recover_administrative_event_history_stale_lock" (by decide),
    isUnits_recoveredTexts "status" (by decide), isUnits_recoveredTexts "succeeded" (by decide),
    isUnits_recoveredTexts "details" (by decide), hdetails, trivial⟩

/-- The event of a recovered lock passes the check of its fields exactly with the identifier of a run. -/
theorem readsEvent_recoveredInput {attemptId : String} (hid : isRunId attemptId = true) (now : Timestamp)
    (n : Nat) :
    ReadsEvent (AdministrativeEvent.mk (recoveredInput attemptId now) n).fields
      (recoveredInput attemptId now) := by
  obtain ⟨-, h₂, h₃, h₄, h₅, h₆, h₇⟩ :=
    (AdministrativeEvent.mk (recoveredInput attemptId now) n).lookup_fields
  refine {
    source := by
      rw [field_of_lookup h₄]
      show createSource (.obj (sourceFields ⟨.system, "atlas-manager"⟩)) = .ok ⟨.system, "atlas-manager"⟩
      decide
    target := by rw [field_of_lookup h₅]; decide
    operation := field_of_lookup h₆
    status := field_of_lookup h₇
    attemptId := field_of_lookup h₂
    isAttemptId := hid
    occurredAt := field_of_lookup h₃
    isCanonical := ⟨now, rfl⟩
    details := ?_ }
  rw [hasOwn, field, AdministrativeEvent.lookup_details]
  show createDetails .recoverAdministrativeEventHistoryStaleLock .succeeded
    (.obj [("outcome", .str "recovered")]) = .ok (some [("outcome", .str "recovered")])
  decide

theorem checked_recoveredInput {attemptId : String} (hid : isRunId attemptId = true) (now : Timestamp)
    {n : Nat} (hn : 1 ≤ n ∧ n < 2 ^ 53) : Checked ⟨recoveredInput attemptId now, n⟩ := by
  have hfields := (AdministrativeEvent.mk (recoveredInput attemptId now) n).lookup_fields
  exact ⟨_, isJs_recoveredInput (isUnits_of_isRunId hid) now n,
    createAdministrativeEvent_eq_ok.mpr ⟨AdministrativeEvent.assertFields_fields _,
      ⟨field_of_lookup hfields.1, hn⟩, readsEvent_recoveredInput hid now n⟩⟩

/-! ## The invariant -/

/-- What is read are all records but those that were removed. -/
structure ReadsLast (sha256 : Text → String) (limits : HistoryLimits) (disk : Option Root)
    (all removed : List EventHistoryRecord) (state : Reconstruction) : Prop where
  reads : reconstruct sha256 limits disk = .ok state
  all_eq : all = removed ++ state.records
  expectedSequence : state.start.expectedSequence = removed.length + 1
  previousRecord : state.start.previousRecord = recordHead genesisHash removed

/-- The exports and the policy are read, and the last line of the ledger is ended. -/
structure KeptBeside (sha256 : Text → String) (limits : HistoryLimits)
    (policy : EventHistoryRetentionPolicy) (disk : Option Root) : Prop where
  lists : ∃ exports, listExports sha256 disk = .ok exports
  policy : readPolicy limits disk = .ok policy
  ended : IsEnded 0x0A ((disk.bind Root.ledger).getD [])

/-- A history with all the records that were ever appended to it, and those that were removed. -/
structure Kept (sha256 : Text → String) (limits : HistoryLimits) (policy : EventHistoryRetentionPolicy)
    (disk : Option Root) (removed all : List EventHistoryRecord) : Prop
    extends KeptBeside sha256 limits policy disk where
  readsLast : ∃ state, ReadsLast sha256 limits disk all removed state
  linked : Linked sha256 genesisHash 1 all
  chained : RecordChain genesisHash all

namespace ReadsLast

variable {disk : Option Root} {all removed : List EventHistoryRecord} {state : Reconstruction}

theorem latest (h : ReadsLast sha256 limits disk all removed state) :
    state.latestSequence = all.length := by
  have hlatest := (retained_of_reconstruct h.reads).latest
  rw [h.expectedSequence] at hlatest
  rw [h.all_eq, List.length_append]
  omega

theorem lastRecord (h : ReadsLast sha256 limits disk all removed state) :
    state.lastRecordSha256 = recordHead genesisHash all := by
  rw [(retained_of_reconstruct h.reads).lastRecord, h.previousRecord, h.all_eq, recordHead_append]

theorem earliest (h : ReadsLast sha256 limits disk all removed state) :
    state.earliestRetainedSequence = removed.length + 1 := by
  rw [(retained_of_reconstruct h.reads).earliest, h.expectedSequence]

end ReadsLast

section Kept

variable {policy : EventHistoryRetentionPolicy} {disk : Option Root}
  {removed all : List EventHistoryRecord}

theorem kept_initial : Kept sha256 limits (limits.initialRetentionPolicy.getD defaultRetentionPolicy)
    none [] [] where
  readsLast := ⟨.empty, rfl, rfl, rfl, rfl⟩
  linked := .nil
  chained := trivial
  lists := ⟨[], rfl⟩
  policy := rfl
  ended := .inl rfl

theorem reconstructs_emptyRoot : Reconstructs sha256 limits emptyRoot .empty where
  fault := rfl
  transaction := rfl
  wellFormed := rfl
  anchor := ⟨none, rfl, rfl, rfl⟩
  segments := rfl
  active := rfl
  activeEvents := Nat.zero_le _
  activeBytes := Nat.zero_le _
  follows := rfl

/-- The directories may be made at any time. -/
theorem Kept.ensureRoot (h : Kept sha256 limits policy disk removed all) :
    Kept sha256 limits policy (some (EventHistory.ensureRoot disk)) removed all := by
  cases disk with
  | some root =>
      obtain ⟨state, hreads⟩ := h.readsLast
      rw [ensureRoot_some (reconstruct_eq_ok.mp hreads.reads).fault]
      exact h
  | none =>
      obtain ⟨state, hreads⟩ := h.readsLast
      have hempty := hreads.reads
      rw [reconstruct, Except.ok.injEq] at hempty
      rw [← hempty] at hreads
      exact {
        readsLast := ⟨.empty, reconstruct_eq_ok.mpr reconstructs_emptyRoot, hreads.all_eq,
          hreads.expectedSequence, hreads.previousRecord⟩
        linked := h.linked
        chained := h.chained
        lists := ⟨[], rfl⟩
        policy := h.policy
        ended := .inl rfl }

/-- What is beside the segments is all that exports, policy and ledger depend on. -/
theorem lists_congr {a b : Root} {exports : List EventHistoryExportMetadata}
    (h : Lists sha256 a exports) (hfault : b.fault = none) (hcontents : b.exportContents = a.exportContents)
    (hmanifests : b.exportManifests = a.exportManifests) : Lists sha256 b exports := by
  obtain ⟨metadatas, hmetadatas, hexports⟩ := h.reads
  refine ⟨hfault, ?_, metadatas, ?_, hexports⟩
  · rw [Root.exportsPaired, hcontents, hmanifests]
    exact h.paired
  · rw [hmanifests]
    refine hmetadatas.imp fun _ _ hread => ⟨?_, hread.ownId, ?_⟩
    · rw [hmanifests]
      exact hread.manifest
    · rw [hcontents]
      exact hread.content

theorem KeptBeside.sameBeside {root root' : Root} (h : KeptBeside sha256 limits policy (some root))
    (hbeside : root.SameBeside root') (hfault : root'.fault = none) :
    KeptBeside sha256 limits policy (some root') where
  lists := by
    obtain ⟨exports, hlist⟩ := h.lists
    exact ⟨exports, listExports_eq_ok.mpr (lists_congr (listExports_eq_ok.mp hlist) hfault
      hbeside.exportContents hbeside.exportManifests)⟩
  policy := by
    have hpolicy := h.policy
    rw [readPolicy, Option.bind_some] at hpolicy ⊢
    rw [hbeside.policy]
    exact hpolicy
  ended := by
    have hended := h.ended
    rw [Option.bind_some] at hended ⊢
    rw [hbeside.ledger]
    exact hended

/-! ## Rotations -/

theorem Kept.rotate (hsha256 : ∀ text, isSha256 (sha256 text) = true) (hlimits : limits.Valid)
    (h : Kept sha256 limits policy disk removed all) (now : Timestamp) :
    Kept sha256 limits policy (rotateOne sha256 limits now disk).2 removed all := by
  obtain ⟨state, hreads⟩ := h.readsLast
  by_cases hempty : state.activeRecords = []
  · rw [rotateOne_unchanged hreads.reads hempty]
    exact h
  · cases disk with
    | none =>
        have hread := hreads.reads
        rw [reconstruct, Except.ok.injEq] at hread
        rw [← hread] at hempty
        exact absurd rfl hempty
    | some root =>
        have hbytes := hlimits.bytes
        obtain ⟨name, manifest, hrotate, hreads'⟩ := rotateOne_rotated hsha256
          (reconstruct_eq_ok.mp hreads.reads) (by omega) hempty now
        rw [hrotate]
        exact {
          toKeptBeside := h.toKeptBeside.sameBeside ⟨rfl, rfl, rfl, rfl⟩ hreads'.fault
          readsLast := ⟨state.sealActive manifest, reconstruct_eq_ok.mpr hreads',
            by rw [state.records_sealActive, hreads.all_eq], hreads.expectedSequence,
            hreads.previousRecord⟩
          linked := h.linked
          chained := h.chained }

/-! ## Recording -/

/-- A record of an event: it has the event's number, and the same event up to the order of the fields
in its details. -/
structure RecordOf (event : AdministrativeEvent) (record : EventHistoryRecord) : Prop where
  sequence : record.sequence = event.sequence
  same : SameJson (.obj record.event.fields) (.obj event.fields)

theorem Kept.append {root root' : Root} {state state' : Reconstruction}
    (h : Kept sha256 limits policy (some root) removed all)
    (hreads : ReadsLast sha256 limits (some root) all removed state) {event : AdministrativeEvent}
    {read : EventHistoryRecord}
    (happends : AppendsEvent sha256 limits root state event read root' state') :
    Kept sha256 limits policy (some root') removed (all ++ [read]) ∧
      ReadsLast sha256 limits (some root') (all ++ [read]) removed state' ∧ RecordOf event read := by
  have hreads' : ReadsLast sha256 limits (some root') (all ++ [read]) removed state' :=
    ⟨reconstruct_eq_ok.mpr happends.reads, by rw [happends.records, hreads.all_eq, List.append_assoc],
      by rw [happends.start, hreads.expectedSequence], by rw [happends.start, hreads.previousRecord]⟩
  have hlast : state'.records.getLast? = some read := by
    rw [happends.records, List.getLast?_concat]
  have hlinked := happends.reads.retained.linked
  have hchained := happends.reads.retained.chained
  rw [happends.start] at hlinked hchained
  rw [hreads.expectedSequence] at hlinked
  have hnumber : read.sequence = all.length + 1 := by
    have hsequence := hlinked.last_sequence hlast
    rw [happends.records, List.length_append, List.length_singleton] at hsequence
    rw [hreads.all_eq, List.length_append]
    omega
  have hprevious : read.previousRecordSha256 = recordHead genesisHash all := by
    rw [happends.records, recordChain_append, hreads.previousRecord, ← recordHead_append,
      ← hreads.all_eq] at hchained
    exact hchained.2.1
  have hvalid := hlinked.valid read (List.mem_of_getLast? hlast)
  refine ⟨{
    toKeptBeside := h.toKeptBeside.sameBeside happends.beside happends.reads.fault
    readsLast := ⟨state', hreads'⟩
    linked := ?_
    chained := recordChain_append.mpr ⟨h.chained, hprevious, trivial⟩ }, hreads', ?_, happends.same⟩
  · have hone := linked_singleton hvalid
    rw [hnumber, Nat.add_comm] at hone
    refine h.linked.append hone fun hempty => ?_
    rw [hprevious, hempty, recordHead_nil]
  · rw [hnumber, happends.sequence, hreads.latest]

/-- What the events that were appended leave. -/
def KeptWith (sha256 : Text → String) (limits : HistoryLimits) (policy : EventHistoryRetentionPolicy)
    (removed all : List EventHistoryRecord) (appended : List AdministrativeEvent)
    (disk : Option Root) : Prop :=
  ∃ behind, Kept sha256 limits policy disk removed (all ++ behind) ∧
    List.Forall₂ RecordOf appended behind

theorem keptWith_nil (h : Kept sha256 limits policy disk removed all) :
    KeptWith sha256 limits policy removed all [] disk := ⟨[], by rwa [List.append_nil], .nil⟩

theorem Kept.appendLast (hsha256 : ∀ text, isSha256 (sha256 text) = true) (hlimits : limits.Valid)
    {root : Root} {state : Reconstruction}
    (h : Kept sha256 limits policy (some root) removed all)
    (hreads : ReadsLast sha256 limits (some root) all removed state) {input : AdministrativeEventInput}
    (hjs : ∀ n, IsJs (.obj (AdministrativeEvent.mk input n).fields)) (now : Timestamp)
    (recovered : Option AdministrativeEvent) :
    let result := EventHistory.appendLast sha256 limits now root state recovered input
    result.recovered = recovered ∧
      KeptWith sha256 limits policy removed all result.answer.toOption.toList result.disk := by
  cases appendRecord_spec hsha256 hlimits (reconstruct_eq_ok.mp hreads.reads) hjs now with
  | inl hrefused =>
      obtain ⟨code, hrefused⟩ := hrefused
      simp only [EventHistory.appendLast, hrefused, true_and]
      exact keptWith_nil h
  | inr hdone =>
      obtain ⟨event, read, root', state', hdone, happends⟩ := hdone
      obtain ⟨hkept, -, hrecord⟩ := h.append hreads happends
      simp only [EventHistory.appendLast, hdone, true_and]
      exact ⟨[read], hkept, .cons hrecord .nil⟩

theorem Kept.recordOne (hsha256 : ∀ text, isSha256 (sha256 text) = true) (hlimits : limits.Valid)
    (h : Kept sha256 limits policy disk removed all) (now : Timestamp) {attemptId : String}
    (hid : IsUnits attemptId) (receipt : Option Text) {input : AdministrativeEventInput}
    (hjs : ∀ n, IsJs (.obj (AdministrativeEvent.mk input n).fields)) :
    let result := EventHistory.recordOne sha256 limits now attemptId receipt disk input
    KeptWith sha256 limits policy removed all result.appended result.disk := by
  have hmade := h.ensureRoot
  obtain ⟨state, hreads⟩ := hmade.readsLast
  simp only [EventHistory.recordOne, hreads.reads]
  cases receipt with
  | none =>
      obtain ⟨hnone, hlast⟩ := hmade.appendLast hsha256 hlimits hreads hjs now none
      simp only [RecordResult.appended, hnone, Option.toList_none, List.nil_append]
      exact hlast
  | some text =>
      dsimp only
      cases validateStaleLockRecoveryReceipt text with
      | error code => exact keptWith_nil hmade
      | ok _ =>
          dsimp only
          cases appendRecord_spec hsha256 hlimits (reconstruct_eq_ok.mp hreads.reads)
            (isJs_recoveredInput hid now) now with
          | inl hrefused =>
              obtain ⟨code, hrefused⟩ := hrefused
              simp only [hrefused]
              exact keptWith_nil hmade
          | inr hdone =>
              obtain ⟨event, read, root', state', hdone, happends⟩ := hdone
              obtain ⟨hkept, hreads', hrecord⟩ := hmade.append hreads happends
              obtain ⟨hsome, behind, hlast, hrecords⟩ :=
                hkept.appendLast hsha256 hlimits hreads' hjs now (some event)
              simp only [hdone, RecordResult.appended, hsome, Option.toList_some]
              rw [List.append_assoc] at hlast
              exact ⟨read :: behind, hlast, .cons hrecord hrecords⟩

theorem Kept.record (hsha256 : ∀ text, isSha256 (sha256 text) = true) (hlimits : limits.Valid)
    (h : Kept sha256 limits policy disk removed all) (now : Timestamp) {attemptId : String}
    (hid : IsUnits attemptId) (receipt : Option Text) {input : JsValue} (hjs : IsJs input) :
    let result := EventHistory.record sha256 limits now attemptId receipt disk input
    KeptWith sha256 limits policy removed all result.appended result.disk := by
  cases hchecked : createAdministrativeEventInput input with
  | error code =>
      simp only [EventHistory.record, hchecked]
      exact keptWith_nil h
  | ok validated =>
      simp only [EventHistory.record, hchecked]
      have hone : Checked ⟨validated, 1⟩ := checked_of_input hjs hchecked (by decide)
      exact h.recordOne hsha256 hlimits now hid receipt (isJs_withNumber hone)

/-! ## Removing segments -/

theorem Kept.pruneSegments (hsha256 : ∀ text, isSha256 (sha256 text) = true)
    (h : Kept sha256 limits policy disk removed all) (now : Timestamp) :
    ∃ gone, Kept sha256 limits policy (EventHistory.pruneSegments sha256 limits now disk).2
        (removed ++ gone) all ∧
      gone.length = HistoryCall.pruneSegments.removedEvents sha256 limits now disk := by
  obtain ⟨state, hreads⟩ := h.readsLast
  have hread := hreads.reads
  have hbounds := @withinBounds_front SealedSegment policy.minSealedSegments policy.maxSealedSegments
    (isOldSegment (ageCutoff now policy.maxSealedSegmentAgeDays)) policy.segments_le state.sealed
  have hsealed := @removedFront_append SealedSegment policy.minSealedSegments policy.maxSealedSegments
    (isOldSegment (ageCutoff now policy.maxSealedSegmentAgeDays)) state.sealed
  generalize hgone : removedFront policy.minSealedSegments policy.maxSealedSegments
    (isOldSegment (ageCutoff now policy.maxSealedSegmentAgeDays)) state.sealed = gone at hbounds hsealed
  generalize keptBehind policy.minSealedSegments policy.maxSealedSegments
    (isOldSegment (ageCutoff now policy.maxSealedSegmentAgeDays)) state.sealed = stays at hbounds hsealed
  by_cases hnone : gone = []
  · have hrun := pruneSegments_unchanged hread h.policy (by rw [hgone, hnone])
    refine ⟨[], ?_, ?_⟩
    · rw [hrun, List.append_nil]
      exact h
    · simp only [HistoryCall.removedEvents, hrun, List.length_nil]
  · have hstays : stays ≠ [] := by
      intro hempty
      have hleast := hbounds.atLeast
      have hpos := policy.segments_pos
      have hlength := List.length_pos_iff.mpr hnone
      rw [← hsealed, List.length_append, hempty, List.length_nil] at hleast
      omega
    cases disk with
    | none =>
        rw [reconstruct, Except.ok.injEq] at hread
        rw [← hread] at hgone
        exact absurd hgone.symm hnone
    | some root =>
        have hroot := reconstruct_eq_ok.mp hread
        have hended := h.ended
        obtain ⟨anchor, hvalid, hchain, ⟨latest, hlatest, hprevious⟩, hrun⟩ :=
          pruneSegments_pruned hsha256 hroot h.policy hgone hsealed.symm hnone hstays
        have hanchor : readRetentionAnchor sha256
            (root.removeSegments anchor (gone.map SealedSegment.name)) = .ok (some anchor) :=
          readRetentionAnchor_append hlatest hended hvalid hprevious rfl
        have hsplit := hroot.split hsealed.symm
        -- the records of the segments that go are behind those that went before
        have hsegments := hroot.segments
        rw [← (readSegments_ok hsegments).names, ← hsealed, List.map_append] at hsegments
        obtain ⟨front, back, hfront, -, happend⟩ := readSegments_append.mp hsegments
        have hlength : gone.length = front.length := by
          have hlengths := congrArg List.length (readSegments_ok hfront).names
          rw [List.length_map, List.length_map] at hlengths
          exact hlengths.symm
        have hgoes : front = gone := (List.append_inj happend hlength).1.symm
        rw [hgoes] at hfront
        have hrecords : state.records =
            gone.flatMap SealedSegment.records ++ (state.behind gone stays).records := by
          simp [Reconstruction.records, Reconstruction.behind, ← hsealed]
        refine ⟨gone.flatMap SealedSegment.records, ?_, by simp only [HistoryCall.removedEvents, hrun]⟩
        rw [hrun]
        exact {
          readsLast := ⟨state.behind gone stays,
            reconstruct_eq_ok.mpr (hroot.removeSegments hsplit hnone hchain hanchor),
            by rw [hreads.all_eq, hrecords, List.append_assoc],
            by
              show (state.start.behind gone).expectedSequence = _
              rw [(readSegments_ok hfront).expected, hreads.expectedSequence, List.length_append]
              omega,
            by
              show (state.start.behind gone).previousRecord = _
              rw [(readSegments_chained hfront).2, hreads.previousRecord, recordHead_append]⟩
          linked := h.linked
          chained := h.chained
          lists := by
            obtain ⟨exports, hlist⟩ := h.lists
            exact ⟨exports, listExports_eq_ok.mpr (lists_removeSegments (listExports_eq_ok.mp hlist) _ _)⟩
          policy := h.policy
          ended := by
            refine .inr ?_
            show (root.ledger.getD [] ++ jsonLine anchor.fields).getLast? = some 0x0A
            rw [jsonLine, ← List.append_assoc, List.getLast?_concat] }

/-! ## Exports and the policy -/

/-- The records stay where no file of the history itself was written. -/
theorem Kept.sameHistory {disk' : Option Root} {policy' : EventHistoryRetentionPolicy}
    (h : Kept sha256 limits policy disk removed all) (hsame : SameHistory disk' disk)
    (hlists : ∃ exports, listExports sha256 disk' = .ok exports)
    (hpolicy : readPolicy limits disk' = .ok policy') : Kept sha256 limits policy' disk' removed all where
  lists := hlists
  policy := hpolicy
  ended := by
    have hended := h.ended
    cases disk with
    | none =>
        cases disk' with
        | none => exact hended
        | some root' => exact hsame.elim
    | some root =>
        cases disk' with
        | none => exact hsame.elim
        | some root' =>
            have hledger := Root.SameHistory.ledger hsame
            rw [Option.bind_some] at hended ⊢
            rw [hledger]
            exact hended
  readsLast := by
    obtain ⟨state, hreads⟩ := h.readsLast
    exact ⟨state, (reconstruct_congr hsame).trans hreads.reads, hreads.all_eq,
      hreads.expectedSequence, hreads.previousRecord⟩
  linked := h.linked
  chained := h.chained

theorem Kept.createExport (hsha256 : ∀ text, isSha256 (sha256 text) = true)
    (h : Kept sha256 limits policy disk removed all) (now : Timestamp) (input : JsValue) :
    Kept sha256 limits policy (EventHistory.createExport sha256 limits now input disk).2 removed all := by
  cases hprepared : prepareExport sha256 limits now input disk with
  | error code =>
      rw [createExport_error hprepared]
      exact h
  | ok prepared =>
      obtain ⟨state, hreads⟩ := h.readsLast
      obtain ⟨exports, hlist⟩ := h.lists
      cases disk with
      | none => exact absurd hprepared prepareExport_none
      | some root =>
          have hlists := listExports_eq_ok.mp hlist
          obtain ⟨-, hid, hwritten⟩ :=
            readsExport_prepared hsha256 (reconstruct_eq_ok.mp hreads.reads) hprepared
          cases createExport_of_prepared hlists hprepared hid with
          | inl hexisting =>
              obtain ⟨existing, -, hcreate⟩ := hexisting
              rw [hcreate]
              exact h
          | inr hcreate =>
              rw [hcreate]
              obtain ⟨exports', hlists'⟩ := hlists.write hid hwritten
              have hsame : SameHistory (some (root.writeExport prepared.1 prepared.2)) (some root) :=
                ⟨rfl, rfl, rfl, rfl, rfl, rfl⟩
              exact h.sameHistory hsame ⟨exports', listExports_eq_ok.mpr hlists'⟩ h.policy

theorem Kept.pruneExports (h : Kept sha256 limits policy disk removed all) (now : Timestamp) :
    Kept sha256 limits policy (EventHistory.pruneExports sha256 limits now disk).2 removed all := by
  obtain ⟨exports, hlist⟩ := h.lists
  have hsame : SameHistory (EventHistory.pruneExports sha256 limits now disk).2 disk :=
    sameHistory_pruneExports disk
  rw [pruneExports_eq h.policy hlist rfl] at hsame ⊢
  exact h.sameHistory hsame ⟨_, listExports_without hlist _⟩ (by rw [readPolicy_withoutExports, h.policy])

/-- The policy after a call. -/
def HistoryCall.policyAfter (policy : EventHistoryRetentionPolicy) :
    HistoryCall → EventHistoryRetentionPolicy
  | setRetentionPolicy input => (createRetentionPolicy input).toOption.getD policy
  | _ => policy

theorem Kept.setRetentionPolicy (h : Kept sha256 limits policy disk removed all) (input : JsValue) :
    Kept sha256 limits ((createRetentionPolicy input).toOption.getD policy)
      (EventHistory.setRetentionPolicy input disk).2 removed all := by
  have hmade := h.ensureRoot
  obtain ⟨state, hreads⟩ := hmade.readsLast
  have hfault := (reconstruct_eq_ok.mp hreads.reads).fault
  cases setRetentionPolicy_spec limits input hfault with
  | inl hrefused =>
      obtain ⟨code, hcreate, hset⟩ := hrefused
      rw [hset, hcreate]
      exact h
  | inr hdone =>
      obtain ⟨policy', hcreate, hset, hpolicy⟩ := hdone
      obtain ⟨exports, hlist⟩ := hmade.lists
      rw [hset] at hpolicy ⊢
      rw [hcreate]
      have hsame : SameHistory (some { EventHistory.ensureRoot disk with
          policy := some (jsonLine policy'.fields) }) (some (EventHistory.ensureRoot disk)) :=
        ⟨rfl, rfl, rfl, rfl, rfl, rfl⟩
      refine hmade.sameHistory hsame ⟨exports, ?_⟩ hpolicy
      exact listExports_eq_ok.mpr (lists_congr (listExports_eq_ok.mp hlist) hfault rfl rfl)

/-! ## Runs -/

/-- Most operations remove nothing. -/
theorem KeptWith.nothingGone {appended : List AdministrativeEvent}
    (h : KeptWith sha256 limits policy removed all appended disk) :
    ∃ gone, KeptWith sha256 limits policy (removed ++ gone) all appended disk ∧ gone.length = 0 :=
  ⟨[], by rwa [List.append_nil], rfl⟩

/-- **Every operation** keeps the invariant, with the events that it has appended and the records that
it says it has removed. -/
theorem Kept.perform (hsha256 : ∀ text, isSha256 (sha256 text) = true) (hlimits : limits.Valid)
    (h : Kept sha256 limits policy disk removed all) (now : Timestamp) (call : HistoryCall) :
    let result := call.perform sha256 limits now disk
    ∃ gone, KeptWith sha256 limits (call.policyAfter policy) (removed ++ gone) all result.1 result.2 ∧
      gone.length = call.removedEvents sha256 limits now disk := by
  cases call with
  | record attemptId receipt input =>
      exact (h.record hsha256 hlimits now attemptId.property receipt input.property).nothingGone
  | rotate => exact (keptWith_nil (h.rotate hsha256 hlimits now)).nothingGone
  | setRetentionPolicy input => exact (keptWith_nil (h.setRetentionPolicy input)).nothingGone
  | pruneSegments =>
      obtain ⟨gone, hkept, hlength⟩ := h.pruneSegments hsha256 now
      exact ⟨gone, keptWith_nil hkept, hlength⟩
  | createExport input => exact (keptWith_nil (h.createExport hsha256 now input)).nothingGone
  | pruneExports => exact (keptWith_nil (h.pruneExports now)).nothingGone

end Kept

/-- The policy after some calls. -/
def policyAfter (limits : HistoryLimits) (calls : List (Timestamp × HistoryCall)) :
    EventHistoryRetentionPolicy :=
  calls.foldl (fun policy timed => timed.2.policyAfter policy)
    (limits.initialRetentionPolicy.getD defaultRetentionPolicy)

/-- The invariant where a run goes on. -/
theorem Kept.after (hsha256 : ∀ text, isSha256 (sha256 text) = true) (hlimits : limits.Valid)
    {policy : EventHistoryRetentionPolicy} {run : HistoryRun} {removed all : List EventHistoryRecord}
    (h : Kept sha256 limits policy run.disk removed all) (hlog : List.Forall₂ RecordOf run.log all)
    (hremoved : removed.length = run.removed) (calls : List (Timestamp × HistoryCall)) :
    ∃ gone more, Kept sha256 limits (calls.foldl (fun policy timed => timed.2.policyAfter policy) policy)
        (run.after sha256 limits calls).disk gone (all ++ more) ∧
      List.Forall₂ RecordOf (run.after sha256 limits calls).log (all ++ more) ∧
      gone.length = (run.after sha256 limits calls).removed := by
  induction calls generalizing policy run removed all with
  | nil =>
      refine ⟨removed, [], ?_, ?_, hremoved⟩
      · rw [List.append_nil]
        exact h
      · rw [List.append_nil]
        exact hlog
  | cons timed calls ih =>
      obtain ⟨gone, ⟨behind, hkept, hbehind⟩, hgone⟩ := h.perform hsha256 hlimits timed.1 timed.2
      have hlogged : List.Forall₂ RecordOf (run.advance sha256 limits timed).log (all ++ behind) :=
        List.rel_append hlog hbehind
      have hlength : (removed ++ gone).length = (run.advance sha256 limits timed).removed := by
        rw [List.length_append, hremoved, hgone]
        rfl
      obtain ⟨removed', more, hmore, hlog', hremoved'⟩ := ih hkept hlogged hlength
      rw [List.append_assoc] at hmore hlog'
      exact ⟨removed', behind ++ more, hmore, hlog', hremoved'⟩

/-- The invariant after every run. -/
theorem kept_runHistory (hsha256 : ∀ text, isSha256 (sha256 text) = true) (hlimits : limits.Valid)
    (calls : List (Timestamp × HistoryCall)) :
    ∃ removed all,
      Kept sha256 limits (policyAfter limits calls) (runHistory sha256 limits calls).disk removed all ∧
      List.Forall₂ RecordOf (runHistory sha256 limits calls).log all ∧
      removed.length = (runHistory sha256 limits calls).removed := by
  have hlog : List.Forall₂ RecordOf HistoryRun.initial.log [] := .nil
  obtain ⟨removed, all, hkept, hlogged, hremoved⟩ :=
    Kept.after hsha256 hlimits kept_initial hlog rfl calls
  exact ⟨removed, all, hkept, hlogged, hremoved⟩

/-- **After every run** of the operations that write, the history can be read.  Its events are the
last ones of all that were ever recorded, which have the numbers from 1 on without a gap, and the
records are chained from the first one on; the latest number is that of all events.  Those that are
not read any more are as many as the calls of `pruneSegments` said that they had removed. -/
theorem runHistory_keeps (hsha256 : ∀ text, isSha256 (sha256 text) = true) (hlimits : limits.Valid)
    (calls : List (Timestamp × HistoryCall)) :
    ∃ state removed, reconstruct sha256 limits (runHistory sha256 limits calls).disk = .ok state ∧
      List.Forall₂ RecordOf (runHistory sha256 limits calls).log (removed ++ state.records) ∧
      (runHistory sha256 limits calls).log.map (·.sequence) =
        List.range' 1 (runHistory sha256 limits calls).log.length ∧
      RecordChain genesisHash (removed ++ state.records) ∧
      removed.length = (runHistory sha256 limits calls).removed ∧
      state.earliestRetainedSequence = removed.length + 1 ∧
      state.latestSequence = (runHistory sha256 limits calls).log.length := by
  obtain ⟨removed, all, hkept, hlog, hremoved⟩ := kept_runHistory hsha256 hlimits calls
  obtain ⟨state, hreads⟩ := hkept.readsLast
  have hchained := hkept.chained
  have hnumbers : (runHistory sha256 limits calls).log.map (·.sequence) = all.map (·.sequence) := by
    have hsame := List.forall₂_map_left_iff.mpr
      (List.forall₂_map_right_iff.mpr (hlog.imp fun _ _ hrecord => hrecord.sequence.symm))
    rwa [List.forall₂_eq_eq_eq] at hsame
  refine ⟨state, removed, hreads.reads, ?_, ?_, ?_, hremoved, hreads.earliest, ?_⟩
  · rwa [← hreads.all_eq]
  · rw [hnumbers, hkept.linked.sequences, hlog.length_eq]
  · rwa [← hreads.all_eq]
  · rw [hreads.latest, hlog.length_eq]

/-! ## What a call to record does -/

/-- The record of an event behind the one with the given hash, where the number of the event is a safe
integer and the line is not too long. -/
def IsNextRecord (sha256 : Text → String) (previous : String) (event : AdministrativeEvent)
    (record : EventHistoryRecord) : Prop :=
  event.sequence < 2 ^ 53 ∧ createNextEventHistoryRecord sha256 event previous = .ok record ∧
    byteLength (serializeEventHistoryRecord record) ≤ eventHistoryMaxRecordBytes

/-- What a call to record needs, beside an input that passes the check, where `number` is the next one:
the event has a next record.  Where the receipt of a recovered lock is pending, the receipt has to be
well formed, and the event of the lock takes the number before. -/
def Recordable (sha256 : Text → String) (number : Nat) (last : String) (now : Timestamp)
    (attemptId : String) (event : AdministrativeEvent) : Option Text → Prop
  | none => event.sequence = number ∧ ∃ record, IsNextRecord sha256 last event record
  | some text => validateStaleLockRecoveryReceipt text = .ok () ∧ isRunId attemptId = true ∧
      event.sequence = number + 1 ∧
      ∃ recovered record, IsNextRecord sha256 last ⟨recoveredInput attemptId now, number⟩ recovered ∧
        IsNextRecord sha256 recovered.recordSha256 event record

section Recorded

variable {root : Root} {state : Reconstruction} {input : AdministrativeEventInput}

/-- An input that passes the check is appended under the next number, exactly where it has a next
record. -/
theorem appendRecord_cases (hsha256 : ∀ text, isSha256 (sha256 text) = true) (hlimits : limits.Valid)
    (h : Reconstructs sha256 limits root state)
    (hinput : ∀ n, 1 ≤ n ∧ n < 2 ^ 53 → Checked ⟨input, n⟩) (now : Timestamp) :
    (∃ record read root' state',
        IsNextRecord sha256 state.lastRecordSha256 ⟨input, state.latestSequence + 1⟩ record ∧
        appendRecord sha256 limits now root state input =
          (.ok (⟨input, state.latestSequence + 1⟩, state'), root') ∧
        AppendsEvent sha256 limits root state ⟨input, state.latestSequence + 1⟩ read root' state') ∨
      (¬ ∃ record,
        IsNextRecord sha256 state.lastRecordSha256 ⟨input, state.latestSequence + 1⟩ record) ∧
        ∃ code, appendRecord sha256 limits now root state input = (.error code, root) := by
  by_cases hlt : state.latestSequence + 1 < 2 ^ 53
  · have hchecked := hinput (state.latestSequence + 1) ⟨Nat.le_add_left 1 _, hlt⟩
    have hcreate := createAdministrativeEvent_again hchecked
    obtain ⟨record, hrecord, -⟩ :=
      createNextEventHistoryRecord_valid hsha256 hchecked (isSha256_lastRecord h)
    by_cases hlong : eventHistoryMaxRecordBytes < byteLength (serializeEventHistoryRecord record)
    · refine .inr ⟨?_, _, appendRecord_long hcreate hrecord hlong⟩
      rintro ⟨record', -, hrecord', hshort⟩
      rw [hrecord, Except.ok.injEq] at hrecord'
      rw [← hrecord'] at hshort
      omega
    · obtain ⟨read, root', state', hdone, happends⟩ := appendRecord_created hsha256 hlimits h
        hchecked hcreate hrecord (Nat.le_of_not_lt hlong) now
      exact .inl ⟨record, read, root', state', ⟨hlt, hrecord, Nat.le_of_not_lt hlong⟩, hdone, happends⟩
  · refine .inr ⟨fun ⟨_, hsafe, _⟩ => hlt hsafe, ?_⟩
    cases hcreate : createAdministrativeEvent
        (.obj (AdministrativeEvent.mk input (state.latestSequence + 1)).fields) with
    | error code =>
        refine ⟨.event code, ?_⟩
        simp only [appendRecord, hcreate]
    | ok made =>
        obtain ⟨-, hnumber, -⟩ := createAdministrativeEvent_eq_ok.mp hcreate
        rw [sequence_of_created hcreate] at hnumber
        exact absurd hnumber.2.2 hlt

theorem appendLast_eq_ok (hsha256 : ∀ text, isSha256 (sha256 text) = true) (hlimits : limits.Valid)
    (h : Reconstructs sha256 limits root state)
    (hinput : ∀ n, 1 ≤ n ∧ n < 2 ^ 53 → Checked ⟨input, n⟩) (now : Timestamp)
    (recovered : Option AdministrativeEvent) (event : AdministrativeEvent) :
    (appendLast sha256 limits now root state recovered input).answer = .ok event ↔
      event = ⟨input, state.latestSequence + 1⟩ ∧
        ∃ record, IsNextRecord sha256 state.lastRecordSha256 event record := by
  cases appendRecord_cases hsha256 hlimits h hinput now with
  | inl hdone =>
      obtain ⟨record, read, root', state', hnext, hdone, -⟩ := hdone
      simp only [appendLast, hdone, Except.ok.injEq]
      constructor
      · rintro rfl
        exact ⟨rfl, record, hnext⟩
      · rintro ⟨rfl, -⟩
        rfl
  | inr hrefused =>
      obtain ⟨hnone, code, hrefused⟩ := hrefused
      simp only [appendLast, hrefused, reduceCtorEq, false_iff]
      rintro ⟨rfl, hnext⟩
      exact hnone hnext

/-- Without the identifier of a run the event of a recovered lock is refused. -/
theorem appendRecord_recovered_refused {attemptId : String} (hid : ¬ isRunId attemptId = true)
    (now : Timestamp) :
    ∃ code, appendRecord sha256 limits now root state (recoveredInput attemptId now) =
      (.error code, root) := by
  cases hcreate : createAdministrativeEvent
      (.obj (AdministrativeEvent.mk (recoveredInput attemptId now) (state.latestSequence + 1)).fields) with
  | error code =>
      refine ⟨.event code, ?_⟩
      simp only [appendRecord, hcreate]
  | ok made =>
      obtain ⟨-, -, hreads⟩ := createAdministrativeEvent_eq_ok.mp hcreate
      have hattempt := hreads.attemptId
      rw [field_of_lookup (AdministrativeEvent.lookup_fields _).2.1, JsValue.str.injEq] at hattempt
      have hmade := hreads.isAttemptId
      rw [← hattempt] at hmade
      exact absurd hmade hid

end Recorded

/-- **A call to record succeeds** after every run exactly where its input passes the check and can be
recorded behind all that were ever recorded; it answers with the input under its number. -/
theorem record_runHistory (hsha256 : ∀ text, isSha256 (sha256 text) = true) (hlimits : limits.Valid)
    (calls : List (Timestamp × HistoryCall)) (now : Timestamp) (attemptId : String)
    (receipt : Option Text) {input : JsValue} (hjs : IsJs input) (event : AdministrativeEvent) :
    ∃ state, reconstruct sha256 limits (runHistory sha256 limits calls).disk = .ok state ∧
      ((record sha256 limits now attemptId receipt
          (runHistory sha256 limits calls).disk input).answer = .ok event ↔
        createAdministrativeEventInput input = .ok event.toAdministrativeEventInput ∧
          Recordable sha256 ((runHistory sha256 limits calls).log.length + 1) state.lastRecordSha256
            now attemptId event receipt) := by
  obtain ⟨removed, all, hkept, hlog, -⟩ := kept_runHistory hsha256 hlimits calls
  obtain ⟨before, hbefore⟩ := hkept.readsLast
  have hmade := hkept.ensureRoot
  obtain ⟨state, hreads⟩ := hmade.readsLast
  -- the directories that are made first change nothing that is read
  have hlast : before.lastRecordSha256 = state.lastRecordSha256 := by
    rw [hbefore.lastRecord, hreads.lastRecord]
  refine ⟨before, hbefore.reads, ?_⟩
  rw [hlast, hlog.length_eq, ← hreads.latest]
  have hroot := reconstruct_eq_ok.mp hreads.reads
  cases hchecked : createAdministrativeEventInput input with
  | error code => simp [record, hchecked]
  | ok validated =>
      have hinput : ∀ n, 1 ≤ n ∧ n < 2 ^ 53 → Checked ⟨validated, n⟩ := fun n hn =>
        checked_of_input hjs hchecked hn
      have hevent : ∀ n, event = ⟨validated, n⟩ ↔
          validated = event.toAdministrativeEventInput ∧ event.sequence = n := by
        intro n
        cases event
        simp [eq_comm]
      simp only [record, hchecked, recordOne, hreads.reads, Except.ok.injEq]
      cases receipt with
      | none =>
          rw [appendLast_eq_ok hsha256 hlimits hroot hinput, hevent, and_assoc, Recordable]
      | some text =>
          dsimp only [Recordable]
          cases hreceipt : validateStaleLockRecoveryReceipt text with
          | error code => simp
          | ok _ =>
              by_cases hid : isRunId attemptId = true
              · cases appendRecord_cases hsha256 hlimits hroot
                  (fun n hn => checked_recoveredInput hid now hn) now with
                | inl hdone =>
                    obtain ⟨recovered, read, root', state', hnext, hdone, happends⟩ := hdone
                    obtain ⟨-, hreads', -⟩ := hmade.append hreads happends
                    obtain ⟨recovered', hrecovered', hhash⟩ := happends.hash
                    have hsame : ∀ {other}, IsNextRecord sha256 state.lastRecordSha256
                        ⟨recoveredInput attemptId now, state.latestSequence + 1⟩ other →
                        other = recovered := by
                      rintro other ⟨-, hother, -⟩
                      rw [hnext.2.1, Except.ok.injEq] at hother
                      exact hother.symm
                    -- the event itself follows the one of the lock
                    have hlatest' : state'.latestSequence = state.latestSequence + 1 := by
                      rw [hreads'.latest, List.length_append, List.length_singleton, ← hreads.latest]
                    have hlast' : state'.lastRecordSha256 = recovered.recordSha256 := by
                      rw [hnext.2.1, Except.ok.injEq] at hrecovered'
                      rw [hreads'.lastRecord, recordHead_of_getLast? List.getLast?_concat, hhash,
                        hrecovered']
                    simp only [hdone]
                    rw [appendLast_eq_ok hsha256 hlimits happends.reads hinput, hevent, hlatest', hlast']
                    constructor
                    · rintro ⟨⟨hsameInput, hnumber⟩, record, hrecord⟩
                      exact ⟨hsameInput, trivial, hid, hnumber, recovered, record, hnext, hrecord⟩
                    · rintro ⟨hsameInput, -, -, hnumber, other, record, hother, hrecord⟩
                      rw [hsame hother] at hrecord
                      exact ⟨⟨hsameInput, hnumber⟩, record, hrecord⟩
                | inr hrefused =>
                    obtain ⟨hnone, code, hrefused⟩ := hrefused
                    simp only [hrefused, reduceCtorEq, false_iff]
                    rintro ⟨-, -, -, -, other, -, hother, -⟩
                    exact hnone ⟨other, hother⟩
              · obtain ⟨code, hrefused⟩ : ∃ code, appendRecord sha256 limits now
                    (EventHistory.ensureRoot (runHistory sha256 limits calls).disk) state
                    (recoveredInput attemptId now) =
                      (.error code, EventHistory.ensureRoot (runHistory sha256 limits calls).disk) :=
                  appendRecord_recovered_refused hid now
                simp [hrefused, hid]

/-- **The policy that is read** after every run is the last one that was set, and the exports are
listed. -/
theorem readPolicy_runHistory (hsha256 : ∀ text, isSha256 (sha256 text) = true)
    (hlimits : limits.Valid) (calls : List (Timestamp × HistoryCall)) :
    readPolicy limits (runHistory sha256 limits calls).disk = .ok (policyAfter limits calls) ∧
      ∃ exports, listExports sha256 (runHistory sha256 limits calls).disk = .ok exports := by
  obtain ⟨_, _, hkept, -⟩ := kept_runHistory hsha256 hlimits calls
  exact ⟨hkept.policy, hkept.lists⟩

/-! ### An event that is recorded and sealed -/

theorem valid_defaultLimits : defaultLimits.Valid where
  events := by decide
  bytes := by decide

theorem isJs_wakeAlarmInput : IsJs (.obj wakeAlarmCancelled.fields.tail) := by
  have hjs := isJs_of_isWritable (isWritable_fields checked_wakeAlarmCancelled)
  exact ⟨hjs.1.sublist ((List.tail_sublist _).map Prod.fst), hjs.2.2.2⟩

theorem isUnits_attemptId : IsUnits "11111111-1111-4111-8111-111111111111" := by
  have hall : ∀ text ∈ ["11111111-1111-4111-8111-111111111111"], IsUnits text :=
    isUnits_of_all (by decide)
  exact hall _ (.head _)

def recordWakeAlarm : Timestamp × HistoryCall :=
  (exportInstant, .record ⟨"11111111-1111-4111-8111-111111111111", isUnits_attemptId⟩ none
    ⟨.obj wakeAlarmCancelled.fields.tail, isJs_wakeAlarmInput⟩)

def recordAndRotate : List (Timestamp × HistoryCall) := [recordWakeAlarm, (exportInstant, .rotate)]

/-- After an event was recorded and its segment was sealed, all that was recorded is read. -/
theorem runHistory_keeps_recordAndRotate :
    ∃ state removed, reconstruct textDigest defaultLimits
        (runHistory textDigest defaultLimits recordAndRotate).disk = .ok state ∧
      List.Forall₂ RecordOf (runHistory textDigest defaultLimits recordAndRotate).log
        (removed ++ state.records) ∧
      (runHistory textDigest defaultLimits recordAndRotate).log.map (·.sequence) =
        List.range' 1 (runHistory textDigest defaultLimits recordAndRotate).log.length ∧
      RecordChain genesisHash (removed ++ state.records) ∧
      removed.length = (runHistory textDigest defaultLimits recordAndRotate).removed ∧
      state.earliestRetainedSequence = removed.length + 1 ∧
      state.latestSequence =
        (runHistory textDigest defaultLimits recordAndRotate).log.length :=
  runHistory_keeps isSha256_textDigest valid_defaultLimits recordAndRotate

/-- The receipt of a lock that was recovered. -/
def pendingReceipt : Text :=
  canonicalJson (.obj [("schemaVersion", .num 1), ("result", .str "recovered"),
    ("recoveredAt", .str "2026-01-01T00:00:00.000Z")])

/-- Behind the event that was sealed, the next one is recorded under number 2, or under number 3 where
a receipt is pending. -/
theorem record_runHistory_recordAndRotate :
    ∃ state, reconstruct textDigest defaultLimits
        (runHistory textDigest defaultLimits recordAndRotate).disk = .ok state ∧
      ∀ receipt ∈ [none, some pendingReceipt], ∀ number,
        ((record textDigest defaultLimits exportInstant "11111111-1111-4111-8111-111111111111"
            receipt (runHistory textDigest defaultLimits recordAndRotate).disk
            (.obj wakeAlarmCancelled.fields.tail)).answer =
              .ok { wakeAlarmCancelled with sequence := number } ↔
          createAdministrativeEventInput (.obj wakeAlarmCancelled.fields.tail) =
              .ok wakeAlarmCancelled.toAdministrativeEventInput ∧
            Recordable textDigest
              ((runHistory textDigest defaultLimits recordAndRotate).log.length + 1)
              state.lastRecordSha256 exportInstant "11111111-1111-4111-8111-111111111111"
              { wakeAlarmCancelled with sequence := number } receipt) := by
  have hrecord := fun receipt number => record_runHistory isSha256_textDigest valid_defaultLimits
    recordAndRotate exportInstant "11111111-1111-4111-8111-111111111111" receipt isJs_wakeAlarmInput
    { wakeAlarmCancelled with sequence := number }
  obtain ⟨state, hstate, -⟩ := hrecord none 2
  refine ⟨state, hstate, fun receipt _ number => ?_⟩
  obtain ⟨state', hstate', hiff⟩ := hrecord receipt number
  rw [hstate, Except.ok.injEq] at hstate'
  rw [hstate']
  exact hiff

/-- A policy is set after these calls, and then another one that is refused. -/
def setPolicies : List (Timestamp × HistoryCall) :=
  recordAndRotate ++ [(exportInstant, .setRetentionPolicy (.obj narrowPolicy.fields)),
    (exportInstant, .setRetentionPolicy (.obj []))]

theorem policyAfter_setPolicies : policyAfter defaultLimits setPolicies = narrowPolicy := by
  decide +kernel

/-- The policy that was set is read. -/
theorem readPolicy_setPolicies :
    readPolicy defaultLimits (runHistory textDigest defaultLimits setPolicies).disk =
        .ok narrowPolicy ∧
      ∃ exports, listExports textDigest
        (runHistory textDigest defaultLimits setPolicies).disk = .ok exports := by
  rw [← policyAfter_setPolicies]
  exact readPolicy_runHistory isSha256_textDigest valid_defaultLimits setPolicies

end AtlasManager.EventHistory
