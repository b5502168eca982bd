import AtlasManager.EventHistory.VersionOneRuns

/-!
# AtlasManager.EventHistory.Migration

The migration of a history of version one to the segmented history.

* `verifyIntegrity` -- what the check of a history answers;
* `migrateVersionOneEventHistory` -- the events are read page by page, recorded in a new directory,
  and this takes the place of the history;
-/

namespace AtlasManager.EventHistory

open AtlasManager.Lib AtlasManager.Lib.Rfc8259 AtlasManager.Backup
open AtlasManager.Config (jsonParse parseStrictJson)

/-! ## The check of a history -/

inductive IntegrityOutcome where
  | verified
  | verifiedWithRetention
  | interrupted
  | broken
  deriving DecidableEq

structure IntegritySummary where
  earliestRetainedSequence : Nat
  latestSequence : Nat
  sealedSegmentCount : Nat
  activeSegmentEventCount : Nat
  retainedEventCount : Nat
  retentionAnchorPresent : Bool
  lastRecordSha256 : String
  lastSegmentSha256 : String
  deriving DecidableEq

structure EventHistoryIntegrityResult where
  outcome : IntegrityOutcome
  summary : Option IntegritySummary
  deriving DecidableEq

def Reconstruction.summary (state : Reconstruction) : IntegritySummary where
  earliestRetainedSequence := state.earliestRetainedSequence
  latestSequence := state.latestSequence
  sealedSegmentCount := state.sealed.length
  activeSegmentEventCount := state.activeRecords.length
  retainedEventCount := state.events.length
  retentionAnchorPresent := state.retentionAnchorPresent
  lastRecordSha256 := state.lastRecordSha256
  lastSegmentSha256 := state.lastSegmentSha256

section Migration

/- `sha256` gives the hexadecimal digest of the bytes of a text. -/
variable (sha256 : Text → String)

def verifyIntegrity (limits : HistoryLimits) (disk : Option Root) : EventHistoryIntegrityResult :=
  match reconstruct sha256 limits disk with
  | .ok state =>
    ⟨if state.retentionAnchorPresent then .verifiedWithRetention else .verified, some state.summary⟩
  | .error .interrupted => ⟨.interrupted, none⟩
  | .error _ => ⟨.broken, none⟩

/-! ## The migration -/

/-- What `inspect` finds of the writer lock. -/
inductive LockState where
  | absent
  | busy
  | stale
  | invalid
  deriving DecidableEq

/-- A root with what it holds in its directory `migration`. -/
structure HistoryRoot where
  history : Root
  migrationReceipt : Option Text

/-- The files of the maintenance; `candidate` is the root beside the history. -/
structure MaintenanceFiles where
  versionOneFile : Option Text
  root : Option HistoryRoot
  candidate : Option HistoryRoot

inductive MigrationError where
  | confirmationInvalid
  | migrationRequired
  | writerBusy
  | writerStale
  | writerInvalid
  | receipt
  | query (error : VersionOne.QueryError)
  | record (error : OperationError)
  | migrationFailed
  deriving DecidableEq

inductive MigrationOutcome where
  | migrated
  | unchanged
  deriving DecidableEq

structure MigrationResult where
  outcome : MigrationOutcome
  eventCount : JsValue
  sourceSha256 : String
  deriving DecidableEq

def migrationConfirmation : String := "confirm_administrative_event_history_v1_migration"

/-- The query for the next hundred events. -/
def nextHundred (afterSequence : Nat) : AdministrativeEventHistoryQuery :=
  ⟨afterSequence, 100, none, none, none, none, none, none⟩

/-- The events of all pages.  `fuel` bounds the number of pages. -/
def readPages (file : Option Text) : Nat → Nat →
    Except VersionOne.QueryError (List AdministrativeEvent)
  | 0, _ => .ok []
  | fuel + 1, afterSequence =>
    match VersionOne.queryOne file (nextHundred afterSequence) with
    | .error error => .error error
    | .ok page =>
      match page.hasMore, page.events.getLast? with
      | true, some last => do
        let events ← readPages file fuel last.sequence
        return page.events ++ events
      | _, _ => .ok page.events

/-- The fields of an event without its number, which stands first. -/
def withoutSequence (event : AdministrativeEvent) : Fields := event.fields.tail

/-- Events are recorded one after another, up to the first one that is refused.  The clock is read for
each of them. -/
def recordAll (limits : HistoryLimits) (clock : Nat → Timestamp) :
    Nat → Option Root → List AdministrativeEvent → Except OperationError Unit × Option Root
  | _, disk, [] => (.ok (), disk)
  | reading, disk, event :: rest =>
    -- a root that is new holds no receipt of a recovered lock
    let result := record sha256 limits (clock reading) "" none disk (.obj (withoutSequence event))
    match result.answer with
    | .error code => (.error code, result.disk)
    | .ok _ => recordAll limits clock (reading + 1) result.disk rest

def migrationReceiptFields (sourceSha256 : String) (events : List AdministrativeEvent)
    (chainHead : String) (migratedAt : Timestamp) : Fields :=
  [("schemaVersion", .num 1), ("sourceSha256", .str sourceSha256),
    ("sourceEventCount", .num events.length),
    ("firstSequence", .num ((events.head?.map (·.sequence)).getD 0 : Nat)),
    ("lastSequence", .num ((events.getLast?.map (·.sequence)).getD 0 : Nat)),
    ("versionTwoChainHead", .str chainHead), ("migratedAt", .str migratedAt.text),
    ("result", .str "migrated")]

/-- A root whose directories `segments` and `exports` are missing. -/
def bareRoot : Root := { emptyRoot with bare := true }

/-- The answer where a receipt is there already. -/
def readMigrationReceipt (sourceSha256 : String) (text : Text) : Except MigrationError MigrationResult :=
  match (jsonParse text).map jsValue with
  | none => .error .receipt
  | some .null => .error .receipt
  | some (.obj receipt) =>
    if field receipt "sourceSha256" = .str sourceSha256 then
      .ok ⟨.unchanged, fieldOr receipt "sourceEventCount" 0, sourceSha256⟩
    else .error .migrationFailed
  | some _ => .error .migrationFailed

/-- `finally`: a candidate is removed where there is no root. -/
def MaintenanceFiles.removeCandidate (files : MaintenanceFiles) : MaintenanceFiles :=
  if files.candidate.isSome && files.root.isNone then { files with candidate := none } else files

/-- The candidate with its receipt, once the events were recorded. -/
def finishCandidate (clock : Nat → Timestamp) (source : Text) (events : List AdministrativeEvent)
    (disk : Option Root) : Except MigrationError HistoryRoot :=
  let integrity := verifyIntegrity sha256 defaultLimits disk
  match integrity.outcome, integrity.summary with
  | .verified, some summary =>
    let receipt := jsonLine (migrationReceiptFields (sha256 source) events summary.lastRecordSha256
      (clock events.length))
    match parseStrictJson receipt with
    | .ok (.obj _) => .ok ⟨disk.getD bareRoot, some receipt⟩
    | .ok (.arr _) => .ok ⟨disk.getD bareRoot, some receipt⟩
    | _ => .error .migrationFailed
  | _, _ => .error .migrationFailed

def migrateVersionOneEventHistory (clock : Nat → Timestamp) (lockState : LockState)
    (files : MaintenanceFiles) (confirmation : String) :
    Except MigrationError MigrationResult × MaintenanceFiles :=
  if confirmation ≠ migrationConfirmation then (.error .confirmationInvalid, files)
  else
    match files.versionOneFile, lockState with
    | none, _ => (.error .migrationRequired, files)
    | some _, .busy => (.error .writerBusy, files)
    | some _, .stale => (.error .writerStale, files)
    | some _, .invalid => (.error .writerInvalid, files)
    | some source, .absent =>
      match files.root.bind HistoryRoot.migrationReceipt with
      | some receipt => (readMigrationReceipt (sha256 source) receipt, files.removeCandidate)
      | none =>
        if files.root.isSome || files.candidate.isSome then
          (.error .migrationFailed, files.removeCandidate)
        else
          match readPages (some source) (source.length + 1) 0 with
          | .error error => (.error (.query error), files)
          | .ok events =>
            match recordAll sha256 defaultLimits clock 0 none events with
            | (.error code, _) => (.error (.record code), files)
            | (.ok _, disk) =>
              match finishCandidate sha256 clock source events disk with
              | .error error => (.error error, files)
              | .ok root =>
                -- the candidate is renamed, and checked once more in its place
                if (verifyIntegrity sha256 defaultLimits (some root.history)).outcome ≠ .verified then
                  (.error .migrationFailed, { files with root := some root })
                else
                  (.ok ⟨.migrated, .num events.length, sha256 source⟩, { files with root := some root })

end Migration

end AtlasManager.EventHistory
