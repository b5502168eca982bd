import AtlasManager.EventHistory.SegmentedHistory

/-!
# AtlasManager.EventHistory.HistoryOperations

What is written to the history: events, sealed segments, and the retention policy.

* `rotateOne` -- the active segment is sealed;
* `appendRecord`, `recordOne` -- an event is appended to the active segment, which is sealed before
  it grows too large;
* `setRetentionPolicy` -- the policy is checked and written;
* `HistoryRun` -- calls one after another on a history that begins without files.
-/

namespace AtlasManager.EventHistory

open AtlasManager.Lib AtlasManager.Lib.Rfc8259 AtlasManager.Backup

/-- What the operations that write throw. -/
inductive OperationError where
  | history (code : HistoryError)
  | event (code : AdministrativeEventValidationErrorCode)
  | record (code : EventHistoryRecordError)
  | recoveryRequired
  deriving DecidableEq

/-! ## The directories -/

/-- A root with its two directories and no files. -/
def emptyRoot : Root where
  violation := none
  bare := false
  transaction := false
  segments := .empty _ _
  manifests := .empty _ _
  active := none
  ledger := none
  policy := none
  exportContents := .empty _ _
  exportManifests := .empty _ _

/-- Directories that are missing are made. -/
def ensureRoot : Option Root → Root
  | none => emptyRoot
  | some root => { root with bare := false }

/-- Where nothing is missing, nothing is made. -/
theorem ensureRoot_some {root : Root} (h : root.fault = none) : ensureRoot (some root) = root := by
  rw [ensureRoot, ← (Root.fault_eq_none.mp h).2]

section Operations

/- `sha256` gives the hexadecimal digest of the bytes of a text. -/
variable (sha256 : Text → String) (limits : HistoryLimits)

/-! ## Sealing the active segment -/

/-- `isPositiveInteger` of a number that the program has counted. -/
def isPositiveInteger (n : Nat) : Bool := 1 ≤ n && n < 2 ^ 53

def validateManifestInput (input : EventHistorySegmentManifest) : Except HistoryError Unit :=
  if !isPositiveInteger input.firstSequence || !isPositiveInteger input.lastSequence ||
      input.lastSequence < input.firstSequence || !isPositiveInteger input.eventCount ||
      input.eventCount ≠ input.lastSequence - input.firstSequence + 1 || 2 ^ 53 ≤ input.byteCount then
    .error .manifestInvalid
  else do
    let _ ← assertHash (.str input.firstRecordSha256)
    let _ ← assertHash (.str input.lastRecordSha256)
    let _ ← assertHash (.str input.previousSegmentSha256)
    let _ ← assertHash (.str input.segmentContentSha256)
    return ()

def EventHistorySegmentManifest.sign (manifest : EventHistorySegmentManifest) :
    EventHistorySegmentManifest :=
  { manifest with manifestSha256 := sha256 (canonicalJson (.obj manifest.unsignedFields)) }

/-- `input` has no hash of its own yet. -/
def createSegmentManifest (input : EventHistorySegmentManifest) :
    Except HistoryError EventHistorySegmentManifest := do
  validateManifestInput input
  return input.sign sha256

def EventHistorySegmentManifest.fields (manifest : EventHistorySegmentManifest) : Fields :=
  manifest.unsignedFields ++ [("manifestSha256", .str manifest.manifestSha256)]

/-- The manifest of the active segment without the hash of itself. -/
def unsignedManifest (state : Reconstruction) (first last : EventHistoryRecord) (bytes : Text)
    (sealedAt : Timestamp) : EventHistorySegmentManifest where
  firstSequence := first.sequence
  lastSequence := last.sequence
  eventCount := state.activeRecords.length
  byteCount := byteLength bytes
  firstRecordSha256 := first.recordSha256
  lastRecordSha256 := last.recordSha256
  previousSegmentSha256 := state.lastSegmentSha256
  segmentContentSha256 := sha256 bytes
  manifestSha256 := ""
  sealedAt

def Root.sealActive (root : Root) (name : SegmentName) (bytes : Text)
    (manifest : EventHistorySegmentManifest) : Root :=
  { root with
    segments := root.segments.write name bytes
    manifests := root.manifests.write name (jsonLine manifest.fields)
    active := some [] }

inductive RotationOutcome where
  | rotated
  | unchanged
  deriving DecidableEq

def rotateOne (now : Timestamp) (disk : Option Root) :
    Except OperationError RotationOutcome × Option Root :=
  match reconstruct sha256 limits disk with
  | .error code => (.error (.history code), disk)
  | .ok state =>
    match state.activeRecords.head?, state.activeRecords.getLast? with
    | some first, some last =>
      let root := ensureRoot disk
      let bytes := root.active.getD []
      match createSegmentManifest sha256 (unsignedManifest sha256 state first last bytes now) with
      | .error _ =>
        -- `transaction.json` is there, and the active segment has been renamed
        (.error .recoveryRequired, some { root with transaction := true, active := none })
      | .ok manifest =>
        (.ok .rotated, some (root.sealActive ⟨first.sequence, last.sequence⟩ bytes manifest))
    | _, _ => (.ok .unchanged, disk)

/-! ## Recording events -/

/-- Is a further line too much for the active segment? -/
def isFull (root : Root) (state : Reconstruction) (line : Text) : Bool :=
  0 < state.activeRecords.length &&
    (limits.maxSegmentEvents ≤ state.activeRecords.length ||
      limits.maxSegmentBytes < byteLength (root.active.getD []) + byteLength line)

/-- The segment that a line is appended to is sealed first, where it would grow too large. -/
def makeRoom (now : Timestamp) (root : Root) (state : Reconstruction) (line : Text) :
    Except OperationError Unit × Root :=
  if isFull limits root state line then
    match rotateOne sha256 limits now (some root) with
    | (.error code, disk) => (.error code, ensureRoot disk)
    | (.ok _, disk) =>
      match reconstruct sha256 limits disk with
      | .error code => (.error (.history code), ensureRoot disk)
      | .ok _ => (.ok (), ensureRoot disk)
  else (.ok (), root)

def Root.append (root : Root) (line : Text) : Root :=
  { root with active := some (root.active.getD [] ++ line) }

/-- The event that was appended, and the history as it is then. -/
def appendRecord (now : Timestamp) (root : Root) (state : Reconstruction)
    (eventInput : AdministrativeEventInput) :
    Except OperationError (AdministrativeEvent × Reconstruction) × Root :=
  let numbered : AdministrativeEvent := { eventInput with sequence := state.latestSequence + 1 }
  match createAdministrativeEvent (.obj numbered.fields) with
  | .error code => (.error (.event code), root)
  | .ok event =>
    match createNextEventHistoryRecord sha256 event state.lastRecordSha256 with
    | .error code => (.error (.record code), root)
    | .ok record =>
      let line := serializeEventHistoryRecord record
      if eventHistoryMaxRecordBytes < byteLength line then
        (.error (.history .capacityExceeded), root)
      else
        match makeRoom sha256 limits now root state line with
        | (.error code, root) => (.error code, root)
        | (.ok _, root) =>
          match reconstruct sha256 limits (some (root.append line)) with
          | .error code => (.error (.history code), root.append line)
          | .ok state => (.ok (event, state), root.append line)

def validateStaleLockRecoveryReceipt (text : Text) : Except HistoryError Unit := do
  match ← decode text with
  | .obj record =>
    if record.length ≠ 3 || field record "schemaVersion" ≠ .num 1 ||
        field record "result" ≠ .str "recovered" ||
        ((field record "recoveredAt").timestamp?).isNone then
      .error .corrupted
    else .ok ()
  | _ => .error .corrupted

/-- The event of a stale lock that was recovered. -/
def recoveredInput (attemptId : String) (now : Timestamp) : AdministrativeEventInput where
  attemptId
  occurredAt := now.text
  source := ⟨.system, "atlas-manager"⟩
  operation := .recoverAdministrativeEventHistoryStaleLock
  status := .succeeded
  details := some [("outcome", .str "recovered")]

/-- What a call to record has done.  `recovered` is the event of a recovered lock, if one was appended
before. -/
structure RecordResult where
  answer : Except OperationError AdministrativeEvent
  recovered : Option AdministrativeEvent
  disk : Option Root

/-- The event itself is appended last. -/
def appendLast (now : Timestamp) (root : Root) (state : Reconstruction)
    (recovered : Option AdministrativeEvent) (input : AdministrativeEventInput) : RecordResult :=
  match appendRecord sha256 limits now root state input with
  | (.error code, root) => ⟨.error code, recovered, some root⟩
  | (.ok (event, _), root) => ⟨.ok event, recovered, some root⟩

/-- `receipt` is the text of `stale-lock-recovery-receipt.json`, if it is there, and `attemptId` is a
random identifier. -/
def recordOne (now : Timestamp) (attemptId : String) (receipt : Option Text) (disk : Option Root)
    (input : AdministrativeEventInput) : RecordResult :=
  let root := ensureRoot disk
  match reconstruct sha256 limits (some root) with
  | .error code => ⟨.error (.history code), none, some root⟩
  | .ok state =>
    match receipt with
    | none => appendLast sha256 limits now root state none input
    | some text =>
      match validateStaleLockRecoveryReceipt text with
      | .error code => ⟨.error (.history code), none, some root⟩
      | .ok _ =>
        match appendRecord sha256 limits now root state (recoveredInput attemptId now) with
        | (.error code, root) => ⟨.error code, none, some root⟩
        | (.ok (event, state), root) => appendLast sha256 limits now root state (some event) input

/-- `record` checks its input before anything else. -/
def record (now : Timestamp) (attemptId : String) (receipt : Option Text) (disk : Option Root)
    (input : JsValue) : RecordResult :=
  match createAdministrativeEventInput input with
  | .error code => ⟨.error (.event code), none, disk⟩
  | .ok validated => recordOne sha256 limits now attemptId receipt disk validated

/-! ## The retention policy -/

def EventHistoryRetentionPolicy.segmentFields (policy : EventHistoryRetentionPolicy) : Fields :=
  [("minSealedSegments", .num policy.minSealedSegments),
    ("maxSealedSegments", .num policy.maxSealedSegments),
    ("maxSealedSegmentAgeDays", .num policy.maxSealedSegmentAgeDays)]

def EventHistoryRetentionPolicy.exportFields (policy : EventHistoryRetentionPolicy) : Fields :=
  [("minExports", .num policy.minExports), ("maxExports", .num policy.maxExports),
    ("maxExportAgeDays", .num policy.maxExportAgeDays)]

def EventHistoryRetentionPolicy.fields (policy : EventHistoryRetentionPolicy) : Fields :=
  [("schemaVersion", .num 1), ("automaticPruneEnabled", .bool policy.automaticPruneEnabled),
    ("segments", .obj policy.segmentFields), ("exports", .obj policy.exportFields)]

def setRetentionPolicy (input : JsValue) (disk : Option Root) :
    Except HistoryError EventHistoryRetentionPolicy × Option Root :=
  match createRetentionPolicy input with
  | .error code => (.error code, disk)
  | .ok policy =>
    let root := ensureRoot disk
    match root.fault with
    | some code => (.error code, disk)
    | none => (.ok policy, some { root with policy := some (jsonLine policy.fields) })

/-! ## Runs -/

/-- The operations that write, each with what it is given.  Texts are those of JavaScript. -/
inductive HistoryCall where
  | record (attemptId : { id : String // IsUnits id }) (receipt : Option Text)
    (input : { value : JsValue // IsJs value })
  | rotate
  | setRetentionPolicy (input : JsValue)
  | pruneSegments
  | createExport (input : JsValue)
  | pruneExports

/-- The events that a call to record has appended. -/
def RecordResult.appended (result : RecordResult) : List AdministrativeEvent :=
  result.recovered.toList ++ result.answer.toOption.toList

/-- What a call appends to the history, and what it leaves. -/
def HistoryCall.perform (now : Timestamp) (disk : Option Root) :
    HistoryCall → List AdministrativeEvent × Option Root
  | record attemptId receipt input =>
    let result := EventHistory.record sha256 limits now attemptId.val receipt disk input.val
    (result.appended, result.disk)
  | rotate => ([], (rotateOne sha256 limits now disk).2)
  | setRetentionPolicy input => ([], (EventHistory.setRetentionPolicy input disk).2)
  | pruneSegments => ([], (EventHistory.pruneSegments sha256 limits now disk).2)
  | createExport input => ([], (EventHistory.createExport sha256 limits now input disk).2)
  | pruneExports => ([], (EventHistory.pruneExports sha256 limits now disk).2)

/-- How many events a call says that it has removed. -/
def HistoryCall.removedEvents (now : Timestamp) (disk : Option Root) : HistoryCall → Nat
  | pruneSegments =>
    match (EventHistory.pruneSegments sha256 limits now disk).1 with
    | .ok result => result.removedEventCount
    | .error _ => 0
  | _ => 0

/-- A history after some calls: its files, all events that were ever recorded, and how many the calls
said that they had removed. -/
structure HistoryRun where
  disk : Option Root
  log : List AdministrativeEvent
  removed : Nat

def HistoryRun.initial : HistoryRun := ⟨none, [], 0⟩

def HistoryRun.advance (run : HistoryRun) (timed : Timestamp × HistoryCall) : HistoryRun :=
  let result := timed.2.perform sha256 limits timed.1 run.disk
  ⟨result.2, run.log ++ result.1,
    run.removed + timed.2.removedEvents sha256 limits timed.1 run.disk⟩

/-- A run that goes on. -/
def HistoryRun.after (run : HistoryRun) (calls : List (Timestamp × HistoryCall)) : HistoryRun :=
  calls.foldl (HistoryRun.advance sha256 limits) run

def runHistory (calls : List (Timestamp × HistoryCall)) : HistoryRun :=
  HistoryRun.initial.after sha256 limits calls

end Operations

end AtlasManager.EventHistory
