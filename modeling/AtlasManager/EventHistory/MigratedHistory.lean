import AtlasManager.EventHistory.Migration
import AtlasManager.EventHistory.RecordLength

/-!
# AtlasManager.EventHistory.MigratedHistory

What the migration of a history of version one leaves.

* `VersionOne.queryOne_reads`, `readPages_reads` -- the pages of a file together are its events;
* `Copied` -- the invariant of the copy: its records are those of the events so far, without a
  retention anchor;
* `recordAll_copied` -- every event of a file is copied;
* `migrate_exact` -- **when** a history is migrated;
* `migrate_migrated` -- **the history** then answers every request as the file did;
* `migrate_again`, `migrate_empty` -- a second migration, and one of a file without events.
-/

namespace AtlasManager.EventHistory

open AtlasManager.Lib AtlasManager.Lib.Rfc8259 AtlasManager.Backup
open AtlasManager.Config (jsonParse jsonParse_eq_some parseStrictJson)

variable {sha256 : Text → String}

/-! ## Pages of a file -/

theorem VersionOne.Written.sorted {events : List AdministrativeEvent} (h : Written events) :
    events.Pairwise fun a b => a.sequence < b.sequence := by
  have hnumbers : (events.map (·.sequence)).Pairwise (· < ·) := by
    rw [h.sequences]
    exact List.pairwise_lt_range'
  exact List.pairwise_map.mp hnumbers

/-- **A page of a file** holds the first events that match behind a number. -/
theorem VersionOne.queryOne_reads {file : Option Text} {events : List AdministrativeEvent}
    (h : VersionOne.reconstruct file = .ok events) (query : AdministrativeEventHistoryQuery) :
    VersionOne.queryOne file query = .ok (pageOf query query.afterSequence events) := by
  have hwritten := (getD_of_reconstruct h).2
  have hchecked : ∀ event ∈ (matchesBehind query query.afterSequence events).take query.limit,
      Checked event := by
    intro event hevent
    have hmem := (mem_pastCursor.mp (List.mem_of_mem_take hevent)).1
    exact (hwritten.stored event hmem).checked
  have hfound : (events.filter fun event => matchesQuery event query) =
      matchesBehind query query.afterSequence events := rfl
  simp only [VersionOne.queryOne, h, hfound, checkEvents_checked hchecked,
    createAdministrativeEventHistoryPage]
  rfl

/-- The events behind a number are left to be read. -/
theorem readPages_behind {file : Option Text} {events : List AdministrativeEvent}
    (h : VersionOne.reconstruct file = .ok events) (fuel after : Nat)
    (hfuel : (matchesBehind (nextHundred 0) after events).length < fuel) :
    readPages file fuel after = .ok (matchesBehind (nextHundred 0) after events) := by
  have hsorted := (VersionOne.getD_of_reconstruct h).2.sorted
  induction fuel generalizing after with
  | zero => exact absurd hfuel (Nat.not_lt_zero _)
  | succ fuel ih =>
      have hpage : VersionOne.queryOne file (nextHundred after) =
          .ok (pageOf (nextHundred 0) after events) := VersionOne.queryOne_reads h (nextHundred after)
      have hlimit : (nextHundred 0).limit = 100 := rfl
      simp only [readPages, hpage, pageOf, hlimit]
      by_cases hmore : 100 < (matchesBehind (nextHundred 0) after events).length
      · have hne : (matchesBehind (nextHundred 0) after events).take 100 ≠ [] := by
          rw [← List.length_pos_iff, List.length_take]
          omega
        have hlast := List.getLast?_eq_some_getLast hne
        -- the next page is asked for from behind the last event of this one
        have hrest : (matchesBehind (nextHundred 0) after events).drop 100 =
            matchesBehind (nextHundred 0)
              (((matchesBehind (nextHundred 0) after events).take 100).getLast hne).sequence events :=
          eq_pastCursor_of_append hsorted
            (List.take_append_drop 100 (matchesBehind (nextHundred 0) after events)).symm hlast
        have hfewer := congrArg List.length hrest
        rw [List.length_drop] at hfewer
        rw [hlast, decide_eq_true hmore]
        dsimp only
        rw [ih _ (by omega), ← hrest]
        show Except.ok (_ ++ _) = _
        rw [List.take_append_drop]
      · rw [decide_eq_false hmore, List.take_of_length_le (Nat.le_of_not_lt hmore)]

/-- **All pages** of a file together are its events. -/
theorem readPages_reads {source : Text} {events : List AdministrativeEvent}
    (h : VersionOne.reconstruct (some source) = .ok events) :
    readPages (some source) (source.length + 1) 0 = .ok events := by
  obtain ⟨hholds, -, hwritten⟩ := VersionOne.reconstruct_eq_ok.mp h
  have hall : matchesBehind (nextHundred 0) 0 events = events := by
    rw [matchesBehind, pastCursor, List.filter_eq_self]
    intro event hevent
    have hmem := List.mem_map_of_mem (f := AdministrativeEvent.sequence) hevent
    rw [hwritten.sequences, List.mem_range'_1] at hmem
    have hadmits : (nextHundred 0).admits event.toAdministrativeEventInput = true := rfl
    rw [hadmits, Bool.true_and, decide_eq_true_eq]
    omega
  have hcount : events.length ≤ source.length := hholds.length_le
  have hread := readPages_behind h (source.length + 1) 0 (by rw [hall]; omega)
  rwa [hall] at hread

/-! ## The copy -/

/-- The records of a copy are those of the events that were recorded so far. -/
structure Copied (sha256 : Text → String) (disk : Option Root) (events : List AdministrativeEvent) :
    Prop where
  ledger : (disk.getD emptyRoot).ledger = none
  reads : ∃ state, Reconstructs sha256 defaultLimits (disk.getD emptyRoot) state ∧
    state.start = .genesis ∧ List.Forall₂ RecordOf events state.records

theorem copied_none : Copied sha256 none [] where
  ledger := rfl
  reads := ⟨.empty, reconstructs_emptyRoot, rfl, .nil⟩

/-- An event without its number passes the check of an input. -/
theorem createAdministrativeEventInput_withoutSequence {event : AdministrativeEvent} (h : Checked event) :
    createAdministrativeEventInput (.obj (withoutSequence event)) =
      .ok event.toAdministrativeEventInput := by
  obtain ⟨hnames, -, hreads⟩ := createAdministrativeEvent_eq_ok.mp (createAdministrativeEvent_again h)
  have hfields : event.fields = ("sequence", .num event.sequence) :: withoutSequence event := rfl
  refine createAdministrativeEventInput_eq_ok.mpr ⟨?_, hreads.congr (fun name hname => ?_) ?_⟩
  · have hnodup := event.nodup_names_fields
    rw [hfields, List.map_cons, List.nodup_cons] at hnodup
    obtain ⟨houtside, hlength⟩ := assertFields_eq_ok.mp hnames
    rw [hasFieldOutside_eq_false, hfields, List.map_cons, List.forall_mem_cons] at houtside
    rw [assertFields_eq_ok, hasFieldOutside_eq_false]
    constructor
    · intro name hname
      have hmem := houtside.2 name hname
      rw [eventNames, List.mem_cons] at hmem
      cases hmem with
      | inl hsame => exact absurd (hsame ▸ hname) hnodup.1
      | inr hinput => exact hinput
    · rw [hfields, List.length_cons] at hlength
      have hcount : (eventNames.filter (· ≠ "details")).length =
          (inputNames.filter (· ≠ "details")).length + 1 := by decide
      omega
  · have hother : ∀ name ∈ inputNames, name ≠ "sequence" := by decide
    have hne : (name == "sequence") = false := by simpa using hother name hname
    rw [hfields, field, field, List.lookup_cons, hne]
  · rw [hfields]
    simp [hasOwn, List.lookup]

/-- The directories of a copy are there. -/
theorem Copied.ensureRoot {disk : Option Root} {events : List AdministrativeEvent}
    (h : Copied sha256 disk events) : EventHistory.ensureRoot disk = disk.getD emptyRoot := by
  obtain ⟨state, hreads, -⟩ := h.reads
  cases disk with
  | none => rfl
  | some root => exact ensureRoot_some hreads.fault

/-- **A stored event is copied** behind those that were copied before. -/
theorem record_copied (hsha256 : ∀ text, isSha256 (sha256 text) = true) {disk : Option Root}
    {events : List AdministrativeEvent} (h : Copied sha256 disk events) {event : AdministrativeEvent}
    (hstored : VersionOne.Stored event) (hsequence : event.sequence = 1 + events.length)
    (now : Timestamp) :
    ∃ root, record sha256 defaultLimits now "" none disk (.obj (withoutSequence event)) =
        ⟨.ok event, none, some root⟩ ∧ Copied sha256 (some root) (events ++ [event]) := by
  obtain ⟨state, hreads, hstart, hrecords⟩ := h.reads
  have hchecked := hstored.checked
  have hlatest : state.latestSequence + 1 = event.sequence := by
    rw [hreads.latest_eq, hstart, hsequence, hrecords.length_eq]
    rfl
  have hagain : createAdministrativeEvent (.obj (AdministrativeEvent.mk
      event.toAdministrativeEventInput (state.latestSequence + 1)).fields) = .ok event := by
    rw [hlatest]
    exact createAdministrativeEvent_again hchecked
  obtain ⟨next, hnext, hevent, -, hvalid⟩ :=
    createNextEventHistoryRecord_valid hsha256 hchecked (isSha256_lastRecord hreads)
  obtain ⟨read, root, state', hdone, happends⟩ :=
    appendRecord_created hsha256 valid_defaultLimits hreads hchecked hagain hnext
      (short_of_stored hstored hvalid hevent) now
  refine ⟨root, ?_, ?_⟩
  · simp only [record, createAdministrativeEventInput_withoutSequence hchecked, recordOne, h.ensureRoot,
      reconstruct_eq_ok.mpr hreads, appendLast, hdone]
  · have hlinked := happends.reads.linked
    have hlast : state'.records.getLast? = some read := by
      rw [happends.records, List.getLast?_concat]
    have hnumber : read.sequence = event.sequence := by
      have hnext := hlinked.last_sequence hlast
      rw [happends.start, happends.records, List.length_append, List.length_singleton] at hnext
      rw [hreads.latest_eq] at hlatest
      omega
    refine ⟨happends.beside.ledger.trans h.ledger, state', happends.reads,
      happends.start.trans hstart, ?_⟩
    rw [happends.records]
    exact List.rel_append hrecords (.cons ⟨hnumber, happends.same⟩ .nil)

/-- **All events are copied**, one after another. -/
theorem recordAll_copied (hsha256 : ∀ text, isSha256 (sha256 text) = true) (clock : Nat → Timestamp)
    (reading : Nat) {disk : Option Root} {events rest : List AdministrativeEvent}
    (h : Copied sha256 disk events) (hstored : ∀ event ∈ rest, VersionOne.Stored event)
    (hnumbers : rest.map (·.sequence) = List.range' (1 + events.length) rest.length) :
    ∃ disk', recordAll sha256 defaultLimits clock reading disk rest = (.ok (), disk') ∧
      Copied sha256 disk' (events ++ rest) ∧ (rest ≠ [] → disk'.isSome = true) := by
  induction rest generalizing reading disk events with
  | nil => exact ⟨disk, rfl, by rwa [List.append_nil], fun hne => absurd rfl hne⟩
  | cons event rest ih =>
      rw [List.map_cons, List.length_cons, List.range'_succ, List.cons.injEq] at hnumbers
      rw [List.forall_mem_cons] at hstored
      obtain ⟨root, hrecord, hcopied⟩ :=
        record_copied hsha256 h hstored.1 hnumbers.1 (clock reading)
      obtain ⟨disk', hall, hcopied', hsome⟩ := ih (reading + 1) hcopied hstored.2
        (by rw [List.length_append, List.length_singleton, ← Nat.add_assoc]; exact hnumbers.2)
      rw [List.append_assoc, List.singleton_append] at hcopied'
      refine ⟨disk', ?_, hcopied', fun _ => ?_⟩
      · simp only [recordAll, hrecord]
        exact hall
      · -- a root stays, also where nothing is left to be recorded
        cases rest with
        | nil =>
            rw [recordAll, Prod.mk.injEq] at hall
            rw [← hall.2]
            rfl
        | cons next rest => exact hsome (by simp)

/-! ## The receipt -/

theorem VersionOne.Stored.sequence_lt {event : AdministrativeEvent} (h : Stored event) :
    event.sequence < 2 ^ 53 := by
  obtain ⟨-, hsequence, -⟩ :=
    createAdministrativeEvent_eq_ok.mp (createAdministrativeEvent_again h.checked)
  exact hsequence.2.2

theorem VersionOne.Written.length_lt {events : List AdministrativeEvent} (h : Written events) :
    events.length < 2 ^ 53 := by
  cases List.eq_nil_or_concat' events with
  | inl hempty =>
      rw [hempty]
      decide
  | inr hconcat =>
      -- the last number is that of all events
      obtain ⟨front, event, rfl⟩ := hconcat
      obtain ⟨-, hstored, hlast, -⟩ := (written_append front event).mp h
      rw [List.length_append, List.length_singleton, Nat.add_comm, ← hlast]
      exact hstored.sequence_lt

theorem isUnits_receiptTexts : ∀ text ∈ ["schemaVersion", "sourceSha256", "sourceEventCount",
    "firstSequence", "lastSequence", "versionTwoChainHead", "migratedAt", "result", "migrated"],
    IsUnits text := isUnits_of_all (by decide)

section Receipt

variable {events : List AdministrativeEvent} {sourceSha256 chainHead : String}

theorem isWritable_receiptFields (hwritten : VersionOne.Written events)
    (hsource : isSha256 sourceSha256 = true) (hhead : isSha256 chainHead = true)
    (migratedAt : Timestamp) :
    IsWritable (.obj (migrationReceiptFields sourceSha256 events chainHead migratedAt)) := by
  have hnumber : ∀ event : Option AdministrativeEvent, (∀ e ∈ event, e ∈ events) →
      (event.map (·.sequence)).getD 0 < 2 ^ 53 := by
    intro event hmem
    cases event with
    | none => decide
    | some event => exact (hwritten.stored event (hmem event rfl)).sequence_lt
  have hfirst := hnumber events.head? fun _ hmem => List.mem_of_mem_head? hmem
  have hlast := hnumber events.getLast? fun _ hmem => List.mem_of_getLast? hmem
  exact ⟨by simp [migrationReceiptFields], isUnits_receiptTexts _ (by decide),
    isWritable_nat (by decide), isUnits_receiptTexts _ (by decide), isUnits_of_isSha256 hsource,
    isUnits_receiptTexts _ (by decide), isWritable_nat hwritten.length_lt,
    isUnits_receiptTexts _ (by decide), isWritable_nat hfirst, isUnits_receiptTexts _ (by decide),
    isWritable_nat hlast, isUnits_receiptTexts _ (by decide), isUnits_of_isSha256 hhead,
    isUnits_receiptTexts _ (by decide), isUnits_timestamp migratedAt,
    isUnits_receiptTexts _ (by decide), isUnits_receiptTexts "migrated" (by decide), trivial⟩

/-- A canonical line is the text of the sorted record. -/
theorem isJsonText_jsonLine (fields : Fields) :
    IsJsonText (jsonLine fields) (treeOf (sortJson (.obj fields))) :=
  isJsonText_write (literalsValid_treeOf _) (.cons (by decide) .nil)

/-- **A receipt** that was written is an answer for the same source, and for no other. -/
theorem readMigrationReceipt_written (hwritten : VersionOne.Written events)
    (hsource : isSha256 sourceSha256 = true) (hhead : isSha256 chainHead = true)
    (migratedAt : Timestamp) (other : String) :
    readMigrationReceipt other
        (jsonLine (migrationReceiptFields sourceSha256 events chainHead migratedAt)) =
      if other = sourceSha256 then .ok ⟨.unchanged, .num events.length, other⟩
      else .error .migrationFailed := by
  have hwritable := isWritable_receiptFields hwritten hsource hhead migratedAt
  have hsorted := isWritable_sortJson hwritable
  have htext := isJsonText_jsonLine (migrationReceiptFields sourceSha256 events chainHead migratedAt)
  have hread : (jsonParse (jsonLine
      (migrationReceiptFields sourceSha256 events chainHead migratedAt))).map jsValue =
        some (.obj (sortFields
          (migrationReceiptFields sourceSha256 events chainHead migratedAt))) := by
    rw [jsonParse_eq_some.mpr ⟨_, htext, rfl⟩, Option.map_some, jsValue_value_treeOf hsorted]
    rfl
  have hsame := sameFields_sortFields hwritable.1
  have hsha : field (sortFields (migrationReceiptFields sourceSha256 events chainHead migratedAt))
      "sourceSha256" = .str sourceSha256 := by
    rw [hsame.field]
    rfl
  have hcount : fieldOr (sortFields (migrationReceiptFields sourceSha256 events chainHead migratedAt))
      "sourceEventCount" 0 = .num events.length := by
    rw [fieldOr, hsame.field]
    rfl
  simp only [readMigrationReceipt, hread, hsha, hcount, JsValue.str.injEq, eq_comm]

end Receipt

/-! ## What a migration leaves -/

/-- What is read of a copy. -/
theorem Copied.reconstructs {disk : Option Root} {events : List AdministrativeEvent}
    (h : Copied sha256 disk events) :
    ∃ state, reconstruct sha256 defaultLimits disk = .ok state ∧ state.retentionAnchorPresent = false ∧
      isSha256 state.lastRecordSha256 = true ∧
      ReadsLast sha256 defaultLimits disk state.records [] state ∧
      List.Forall₂ RecordOf events state.records := by
  obtain ⟨state, hreads, hstart, hrecords⟩ := h.reads
  have hread : reconstruct sha256 defaultLimits disk = .ok state := by
    have hroot := reconstruct_eq_ok.mpr hreads
    cases disk with
    | some root => exact hroot
    | none =>
        have hempty : reconstruct sha256 defaultLimits (some emptyRoot) = .ok .empty :=
          reconstruct_eq_ok.mpr reconstructs_emptyRoot
        exact hempty.symm.trans hroot
  refine ⟨state, hread, ?_, isSha256_lastRecord hreads, ⟨hread, rfl, ?_, ?_⟩, hrecords⟩
  · obtain ⟨anchor, hanchor, -, hpresent⟩ := hreads.anchor
    rw [readRetentionAnchor, h.ledger, Except.ok.injEq] at hanchor
    rw [hpresent, ← hanchor]
    rfl
  · rw [hstart]
    rfl
  · rw [hstart]
    rfl

theorem verifyIntegrity_reads {disk : Option Root} {state : Reconstruction}
    (h : reconstruct sha256 defaultLimits disk = .ok state)
    (hanchor : state.retentionAnchorPresent = false) :
    verifyIntegrity sha256 defaultLimits disk = ⟨.verified, some state.summary⟩ := by
  simp [verifyIntegrity, h, hanchor]

theorem finishCandidate_copied (hsha256 : ∀ text, isSha256 (sha256 text) = true)
    (clock : Nat → Timestamp) (source : Text) {events : List AdministrativeEvent}
    (hwritten : VersionOne.Written events) {disk : Option Root} (h : Copied sha256 disk events) :
    ∃ chainHead, isSha256 chainHead = true ∧
      finishCandidate sha256 clock source events disk =
        .ok ⟨disk.getD bareRoot, some (jsonLine
          (migrationReceiptFields (sha256 source) events chainHead (clock events.length)))⟩ := by
  obtain ⟨state, hread, hanchor, hhead, -⟩ := h.reconstructs
  have hwritable :=
    isWritable_receiptFields hwritten (hsha256 source) hhead (clock events.length)
  have hsorted := isWritable_sortJson hwritable
  have htext := isJsonText_jsonLine
    (migrationReceiptFields (sha256 source) events state.lastRecordSha256 (clock events.length))
  have hparsed : parseStrictJson (jsonLine (migrationReceiptFields (sha256 source) events
      state.lastRecordSha256 (clock events.length))) = .ok (treeOf (sortJson (.obj
        (migrationReceiptFields (sha256 source) events state.lastRecordSha256
          (clock events.length))))).value :=
    Config.parse_eq_ok.mpr ⟨_, htext, fun _ => admitted_treeOf hsorted, rfl⟩
  refine ⟨state.lastRecordSha256, hhead, ?_⟩
  simp only [finishCandidate, verifyIntegrity_reads hread hanchor, Reconstruction.summary, hparsed]
  rfl

/-- **The steps of a migration** up to its last check, where a file is read and there is no root. -/
theorem migrate_steps (hsha256 : ∀ text, isSha256 (sha256 text) = true) (clock : Nat → Timestamp)
    (files : MaintenanceFiles) {source : Text} {events : List AdministrativeEvent}
    (hsource : files.versionOneFile = some source)
    (hread : VersionOne.reconstruct (some source) = .ok events) (hroot : files.root = none)
    (hcandidate : files.candidate = none) :
    ∃ disk chainHead, Copied sha256 disk events ∧ (events ≠ [] → disk.isSome = true) ∧
      (events = [] → disk = none) ∧ isSha256 chainHead = true ∧
      let root : HistoryRoot := ⟨disk.getD bareRoot, some (jsonLine
        (migrationReceiptFields (sha256 source) events chainHead (clock events.length)))⟩
      migrateVersionOneEventHistory sha256 clock .absent files migrationConfirmation =
        if (verifyIntegrity sha256 defaultLimits (some root.history)).outcome ≠ .verified then
          (.error .migrationFailed, { files with root := some root })
        else (.ok ⟨.migrated, .num events.length, sha256 source⟩, { files with root := some root }) := by
  have hwritten := (VersionOne.getD_of_reconstruct hread).2
  obtain ⟨disk, hall, hcopied, hsome⟩ := recordAll_copied hsha256 clock 0 copied_none hwritten.stored
    hwritten.sequences
  rw [List.nil_append] at hcopied
  obtain ⟨chainHead, hhead, hfinish⟩ := finishCandidate_copied hsha256 clock source hwritten hcopied
  refine ⟨disk, chainHead, hcopied, hsome, fun hempty => ?_, hhead, ?_⟩
  · rw [hempty, recordAll, Prod.mk.injEq] at hall
    exact hall.2.symm
  · simp only [migrateVersionOneEventHistory, ne_eq, not_true_eq_false, if_false, hsource, hroot,
      hcandidate, Option.bind_none, Option.isSome_none, Bool.or_self, Bool.false_eq_true,
      readPages_reads hread, hall, hfinish]

/-- What has to hold for a migration. -/
structure Migratable (lockState : LockState) (files : MaintenanceFiles) (confirmation : String)
    (source : Text) (events : List AdministrativeEvent) : Prop where
  confirmation : confirmation = migrationConfirmation
  lock : lockState = .absent
  root : files.root = none
  candidate : files.candidate = none
  file : files.versionOneFile = some source
  reads : VersionOne.reconstruct (some source) = .ok events
  events : events ≠ []

/-! ### A file with one event -/

def wakeAlarmFiles : MaintenanceFiles :=
  ⟨some (VersionOne.serializeEventLine VersionOne.wakeAlarmStarted), none, none⟩

theorem migratable_wakeAlarmFiles : Migratable .absent wakeAlarmFiles migrationConfirmation
    (VersionOne.serializeEventLine VersionOne.wakeAlarmStarted) [VersionOne.wakeAlarmStarted] where
  confirmation := rfl
  lock := rfl
  root := rfl
  candidate := rfl
  file := rfl
  reads := VersionOne.reads_wakeAlarmStarted
  events := by simp

def wakeAlarmResult : MigrationResult :=
  ⟨.migrated, .num [VersionOne.wakeAlarmStarted].length,
    textDigest (VersionOne.serializeEventLine VersionOne.wakeAlarmStarted)⟩

/-! ### Its migration -/

section Migrates

variable {lockState : LockState} {files : MaintenanceFiles} {confirmation : String} {source : Text}
  {events : List AdministrativeEvent}

theorem Migratable.migrate (h : Migratable lockState files confirmation source events)
    (hsha256 : ∀ text, isSha256 (sha256 text) = true) (clock : Nat → Timestamp) :
    ∃ root chainHead, Copied sha256 (some root) events ∧ isSha256 chainHead = true ∧
      migrateVersionOneEventHistory sha256 clock lockState files confirmation =
        (.ok ⟨.migrated, .num events.length, sha256 source⟩,
          { files with
            root := some ⟨root, some (jsonLine (migrationReceiptFields (sha256 source) events chainHead
              (clock events.length)))⟩ }) := by
  obtain ⟨disk, chainHead, hcopied, hdisk, -, hhead, hmigrate⟩ :=
    migrate_steps hsha256 clock files h.file h.reads h.root h.candidate
  obtain ⟨root, rfl⟩ := Option.isSome_iff_exists.mp (hdisk h.events)
  obtain ⟨state, hstate, hanchor, -⟩ := hcopied.reconstructs
  have hverified := congrArg EventHistoryIntegrityResult.outcome (verifyIntegrity_reads hstate hanchor)
  dsimp only [Option.getD_some] at hmigrate hverified
  rw [hverified, if_neg (by simp)] at hmigrate
  refine ⟨root, chainHead, hcopied, hhead, ?_⟩
  rw [h.lock, h.confirmation]
  exact hmigrate

theorem readMigrationReceipt_unchanged {sourceSha256 : String} {text : Text} {result : MigrationResult}
    (h : readMigrationReceipt sourceSha256 text = .ok result) : result.outcome = .unchanged := by
  rw [readMigrationReceipt] at h
  split at h
  · cases h
  · cases h
  · split_ifs at h
    obtain rfl := Except.ok.inj h
    rfl
  · cases h

/-- A file that is not read gives no pages. -/
theorem readPages_error {file : Option Text} {code : VersionOne.FileAdministrativeEventHistoryErrorCode}
    (h : VersionOne.reconstruct file = .error code) (fuel after : Nat) :
    readPages file (fuel + 1) after = .error (.history code) := by
  simp only [readPages, VersionOne.queryOne, h]

/-- Nothing else is migrated. -/
theorem migratable_of_migrated (hsha256 : ∀ text, isSha256 (sha256 text) = true)
    {clock : Nat → Timestamp} {result : MigrationResult} (hmigrated : result.outcome = .migrated)
    (hok : (migrateVersionOneEventHistory sha256 clock lockState files confirmation).1 = .ok result) :
    ∃ source events, Migratable lockState files confirmation source events := by
  obtain ⟨file, root, candidate⟩ := files
  by_cases hconfirmation : confirmation ≠ migrationConfirmation
  · simp [migrateVersionOneEventHistory, hconfirmation] at hok
  rw [not_not] at hconfirmation
  rw [hconfirmation] at hok ⊢
  cases file with
  | none => simp [migrateVersionOneEventHistory] at hok
  | some source =>
      cases lockState with
      | absent =>
          cases hreceipt : root.bind HistoryRoot.migrationReceipt with
          | some receipt =>
              simp only [migrateVersionOneEventHistory, ne_eq, not_true_eq_false, if_false,
                hreceipt] at hok
              rw [readMigrationReceipt_unchanged hok] at hmigrated
              cases hmigrated
          | none =>
              by_cases hclean : (root.isSome || candidate.isSome) = true
              · simp [migrateVersionOneEventHistory, hreceipt, hclean] at hok
              rw [Bool.not_eq_true, Bool.or_eq_false_iff, Option.isSome_eq_false_iff,
                Option.isSome_eq_false_iff, Option.isNone_iff_eq_none, Option.isNone_iff_eq_none] at hclean
              obtain ⟨rfl, rfl⟩ := hclean
              cases hread : VersionOne.reconstruct (some source) with
              | error code => simp [migrateVersionOneEventHistory, readPages_error hread] at hok
              | ok events =>
                  obtain ⟨disk, chainHead, -, -, hempty, -, hmigrate⟩ :=
                    migrate_steps hsha256 clock ⟨some source, none, none⟩ rfl hread rfl rfl
                  rw [hmigrate] at hok
                  split_ifs at hok with hverified
                  refine ⟨source, events, rfl, rfl, rfl, rfl, rfl, hread, fun hnil => ?_⟩
                  -- a history without events is left without its directories
                  rw [hempty hnil] at hverified
                  have hbroken : verifyIntegrity sha256 defaultLimits (some bareRoot) = ⟨.broken, none⟩ := rfl
                  exact hverified (by simp [hbroken])
      | _ => simp [migrateVersionOneEventHistory] at hok

/-- **A history is migrated** exactly where the file is read and has an event, there is nothing of
another history, nobody writes and the call is confirmed. -/
theorem migrate_exact (hsha256 : ∀ text, isSha256 (sha256 text) = true) (clock : Nat → Timestamp)
    (lockState : LockState) (files : MaintenanceFiles) (confirmation : String)
    (result : MigrationResult) :
    result.outcome = .migrated ∧
        (migrateVersionOneEventHistory sha256 clock lockState files confirmation).1 = .ok result ↔
      ∃ source events, Migratable lockState files confirmation source events ∧
        result = ⟨.migrated, .num events.length, sha256 source⟩ := by
  constructor
  · intro h
    obtain ⟨source, events, hfits⟩ := migratable_of_migrated hsha256 h.1 h.2
    obtain ⟨root, chainHead, -, -, hmigrate⟩ := hfits.migrate hsha256 clock
    have hok := h.2
    rw [hmigrate, Except.ok.injEq] at hok
    exact ⟨source, events, hfits, hok.symm⟩
  · intro h
    obtain ⟨source, events, hfits, rfl⟩ := h
    obtain ⟨root, chainHead, -, -, hmigrate⟩ := hfits.migrate hsha256 clock
    rw [hmigrate]
    exact ⟨rfl, rfl⟩

/-- The file with one event is migrated. -/
theorem migrate_exact_wakeAlarm :
    wakeAlarmResult.outcome = .migrated ∧
        (migrateVersionOneEventHistory textDigest (fun _ => exportInstant) .absent wakeAlarmFiles
          migrationConfirmation).1 = .ok wakeAlarmResult ↔
      ∃ source events, Migratable .absent wakeAlarmFiles migrationConfirmation source events ∧
        wakeAlarmResult = ⟨.migrated, .num events.length, textDigest source⟩ :=
  migrate_exact isSha256_textDigest (fun _ => exportInstant) .absent wakeAlarmFiles
    migrationConfirmation wakeAlarmResult

/-- **A second migration** finds that the file was migrated, and is refused for any other file; it
changes nothing. -/
theorem migrate_again (hsha256 : ∀ text, isSha256 (sha256 text) = true) {clock : Nat → Timestamp}
    {files' : MaintenanceFiles} {result : MigrationResult} (hmigrated : result.outcome = .migrated)
    (hdone : migrateVersionOneEventHistory sha256 clock lockState files confirmation =
      (.ok result, files'))
    (later : Nat → Timestamp) (source : Text) :
    migrateVersionOneEventHistory sha256 later .absent { files' with versionOneFile := some source }
        migrationConfirmation =
      (if sha256 source = result.sourceSha256 then .ok { result with outcome := .unchanged }
        else .error .migrationFailed,
        { files' with versionOneFile := some source }) := by
  obtain ⟨migrated, events, hfits⟩ := migratable_of_migrated hsha256 hmigrated (congrArg Prod.fst hdone)
  obtain ⟨root, chainHead, -, hhead, hmigrate⟩ := hfits.migrate hsha256 clock
  rw [hmigrate, Prod.mk.injEq, Except.ok.injEq] at hdone
  obtain ⟨rfl, rfl⟩ := hdone
  have hwritten := (VersionOne.getD_of_reconstruct hfits.reads).2
  simp only [migrateVersionOneEventHistory, ne_eq, not_true_eq_false, if_false, Option.bind_some,
    readMigrationReceipt_written hwritten (hsha256 migrated) hhead, MaintenanceFiles.removeCandidate,
    hfits.candidate, Option.isSome_none, Bool.false_and, Bool.false_eq_true]
  by_cases hsame : sha256 source = sha256 migrated
  · rw [if_pos hsame, if_pos hsame, hsame]
  · rw [if_neg hsame, if_neg hsame]

/-- The file with one event is migrated once. -/
theorem migrate_again_wakeAlarm :
    ∃ files', migrateVersionOneEventHistory textDigest (fun _ => exportInstant) .absent
        wakeAlarmFiles migrationConfirmation = (.ok wakeAlarmResult, files') ∧
      migrateVersionOneEventHistory textDigest (fun _ => exportInstant) .absent
          { files' with versionOneFile := some [] } migrationConfirmation =
        (if textDigest [] = wakeAlarmResult.sourceSha256 then
            .ok { wakeAlarmResult with outcome := .unchanged }
          else .error .migrationFailed,
          { files' with versionOneFile := some [] }) := by
  obtain ⟨root, chainHead, -, -, hmigrate⟩ :=
    migratable_wakeAlarmFiles.migrate isSha256_textDigest (fun _ => exportInstant)
  exact ⟨_, hmigrate, migrate_again isSha256_textDigest rfl hmigrate (fun _ => exportInstant) []⟩

/-- A page with the same events. -/
structure SamePage (page other : AdministrativeEventHistoryPage) : Prop where
  events : List.Forall₂ SameEvent page.events other.events
  hasMore : other.hasMore = page.hasMore
  nextAfterSequence : other.nextAfterSequence = page.nextAfterSequence

theorem samePage_pageOf {events others : List AdministrativeEvent}
    (h : List.Forall₂ SameEvent events others) (query : AdministrativeEventHistoryQuery) (after : Nat) :
    SamePage (pageOf query after events) (pageOf query after others) := by
  have hmatches := forall₂_matchesBehind h query after
  have hpage := List.forall₂_take query.limit hmatches
  have hnumbers : ((matchesBehind query after others).take query.limit).map (·.sequence) =
      ((matchesBehind query after events).take query.limit).map (·.sequence) := by
    have hsame := List.forall₂_map_left_iff.mpr
      (List.forall₂_map_right_iff.mpr (hpage.imp fun _ _ hpair => hpair.sequence.symm))
    rw [List.forall₂_eq_eq_eq] at hsame
    exact hsame.symm
  refine ⟨hpage, ?_, ?_⟩
  · rw [pageOf, pageOf, hmatches.length_eq]
  · rw [pageOf, pageOf]
    dsimp only
    rw [← List.getLast?_map, ← List.getLast?_map, hnumbers]

/-- **A migration** leaves a history that holds the events of the file under the same numbers, and
answers every request as the file did. -/
theorem migrate_migrated (h : Migratable lockState files confirmation source events)
    (hsha256 : ∀ text, isSha256 (sha256 text) = true) (clock : Nat → Timestamp) :
    ∃ root state,
      migrateVersionOneEventHistory sha256 clock lockState files confirmation =
        (.ok ⟨.migrated, .num events.length, sha256 source⟩, { files with root := some root }) ∧
      reconstruct sha256 defaultLimits (some root.history) = .ok state ∧
      List.Forall₂ SameEvent events state.events ∧
      ∀ query, ∃ page other, VersionOne.queryOne (some source) query = .ok page ∧
        queryOne sha256 defaultLimits (some root.history) query = .ok other ∧ SamePage page other := by
  obtain ⟨root, chainHead, hcopied, -, hmigrate⟩ := h.migrate hsha256 clock
  obtain ⟨state, hstate, -, -, hreads, hrecords⟩ := hcopied.reconstructs
  have hevents : List.Forall₂ SameEvent events state.events :=
    forall₂_sameEvent hrecords (retained_of_reconstruct hstate).linked.valid
  refine ⟨_, state, hmigrate, hstate, hevents, fun query => ?_⟩
  have hpage := queryOne_kept hreads query query.afterSequence
  rw [if_neg (by simp)] at hpage
  exact ⟨_, _, VersionOne.queryOne_reads h.reads query, hpage, samePage_pageOf hevents query _⟩

/-- The history with one event answers as the file did. -/
theorem migrate_migrated_wakeAlarm :
    ∃ root state,
      migrateVersionOneEventHistory textDigest (fun _ => exportInstant) .absent wakeAlarmFiles
          migrationConfirmation =
        (.ok wakeAlarmResult, { wakeAlarmFiles with root := some root }) ∧
      reconstruct textDigest defaultLimits (some root.history) = .ok state ∧
      List.Forall₂ SameEvent [VersionOne.wakeAlarmStarted] state.events ∧
      ∀ query, ∃ page other,
        VersionOne.queryOne (some (VersionOne.serializeEventLine VersionOne.wakeAlarmStarted)) query =
          .ok page ∧
        queryOne textDigest defaultLimits (some root.history) query = .ok other ∧
        SamePage page other :=
  migrate_migrated migratable_wakeAlarmFiles isSha256_textDigest fun _ => exportInstant

end Migrates

/-- A call to record finds a root without its directories like one that is missing. -/
theorem record_bareRoot (limits : HistoryLimits) (now : Timestamp) (attemptId : String)
    (receipt : Option Text) (input : JsValue) :
    (record sha256 limits now attemptId receipt (some bareRoot) input).answer =
      (record sha256 limits now attemptId receipt none input).answer := by
  rw [record, record]
  cases createAdministrativeEventInput input with
  | error code => rfl
  | ok validated => rfl

/-- **A file without events** is not migrated: the last check fails, and the root that is left then
makes a second migration say that nothing changed.  The next event is recorded there as the first one,
as its call makes the directories that are missing. -/
theorem migrate_empty (hsha256 : ∀ text, isSha256 (sha256 text) = true) (clock later : Nat → Timestamp)
    (files : MaintenanceFiles) (hsource : files.versionOneFile = some [])
    (hroot : files.root = none) (hcandidate : files.candidate = none) :
    ∃ root,
      migrateVersionOneEventHistory sha256 clock .absent files migrationConfirmation =
        (.error .migrationFailed, { files with root := some root }) ∧
      verifyIntegrity sha256 defaultLimits (some root.history) = ⟨.broken, none⟩ ∧
      migrateVersionOneEventHistory sha256 later .absent { files with root := some root }
          migrationConfirmation =
        (.ok ⟨.unchanged, .num 0, sha256 []⟩, { files with root := some root }) ∧
      ∀ now attemptId receipt input,
        (record sha256 defaultLimits now attemptId receipt (some root.history) input).answer =
          (record sha256 defaultLimits now attemptId receipt none input).answer := by
  have hread : VersionOne.reconstruct (some []) = .ok [] := rfl
  obtain ⟨disk, chainHead, -, -, hempty, hhead, hmigrate⟩ :=
    migrate_steps hsha256 clock files hsource hread hroot hcandidate
  rw [hempty rfl] at hmigrate
  have hbroken : verifyIntegrity sha256 defaultLimits (some bareRoot) = ⟨.broken, none⟩ := rfl
  dsimp only [Option.getD_none] at hmigrate
  rw [hbroken, if_pos (by simp)] at hmigrate
  refine ⟨_, hmigrate, hbroken, ?_, record_bareRoot defaultLimits⟩
  simp only [migrateVersionOneEventHistory, ne_eq, not_true_eq_false, if_false, hsource,
    Option.bind_some, readMigrationReceipt_written VersionOne.written_nil (hsha256 []) hhead,
    MaintenanceFiles.removeCandidate, hcandidate, Option.isSome_none, Bool.false_and,
    Bool.false_eq_true, if_true]
  rfl

/-- A file that holds nothing. -/
theorem migrate_empty_new :
    ∃ root,
      migrateVersionOneEventHistory textDigest (fun _ => exportInstant) .absent
          ⟨some [], none, none⟩ migrationConfirmation =
        (.error .migrationFailed, ⟨some [], some root, none⟩) ∧
      verifyIntegrity textDigest defaultLimits (some root.history) = ⟨.broken, none⟩ ∧
      migrateVersionOneEventHistory textDigest (fun _ => exportInstant) .absent
          ⟨some [], some root, none⟩ migrationConfirmation =
        (.ok ⟨.unchanged, .num 0, textDigest []⟩, ⟨some [], some root, none⟩) ∧
      ∀ now attemptId receipt input,
        (record textDigest defaultLimits now attemptId receipt (some root.history) input).answer =
          (record textDigest defaultLimits now attemptId receipt none input).answer :=
  migrate_empty isSha256_textDigest (fun _ => exportInstant) (fun _ => exportInstant)
    ⟨some [], none, none⟩ rfl rfl rfl

end AtlasManager.EventHistory
