import AtlasManager.Lib.Js

/-!
# AtlasManager.Backup.BackupRun

The records of backups, and the entries of the log they are kept in.

* `BackupRun` -- a record of a backup that has been started, or has ended;
* `validateRun` -- the check of a record before it is written and after it is read;
* `readEntry_toJs` -- an entry reads back as what was written, when its numbers
  are finite.
-/

namespace AtlasManager.Backup

open AtlasManager.Lib

/-! ## Numbers and texts -/

/-- A JavaScript number. -/
inductive JsNumber where
  | finite (q : Rat)
  | nan
  | infinity
  | negativeInfinity
  deriving DecidableEq

namespace JsNumber

/-- The integer of `Number.isSafeInteger`. -/
def safeInteger? : JsNumber → Option Int
  | finite q => if q.den = 1 ∧ q.num.natAbs ≤ 2 ^ 53 - 1 then some q.num else none
  | _ => none

/-- The number that `JSON.stringify` writes, `null` for one that is not finite. -/
def toJs : JsNumber → JsValue
  | finite q => .num q
  | _ => .null

def lt : JsNumber → JsNumber → Bool
  | finite a, finite b => a < b
  | negativeInfinity, finite _ | negativeInfinity, infinity | finite _, infinity => true
  | _, _ => false

end JsNumber

/-- The code units of a text. -/
def codeUnits (text : String) : List Nat :=
  text.toList.flatMap fun c =>
    if c.toNat < 0x10000 then [c.toNat]
    else [0xD800 + (c.toNat - 0x10000) / 0x400, 0xDC00 + (c.toNat - 0x10000) % 0x400]

/-- The order `<=` of texts. -/
def textLe (a b : String) : Bool := ¬ codeUnits b < codeUnits a

/-! ## Records -/

inductive BackupTrigger where
  | manual
  | scheduled
  deriving DecidableEq, Repr

inductive BackupRunStatus where
  | started
  | succeeded
  | failed
  | interrupted
  deriving DecidableEq, Repr

structure BackupArtifactSummary where
  fileCount : JsNumber
  totalBytes : JsNumber
  manifestSha256 : String
  completedAt : String
  deriving DecidableEq

structure BackupRun where
  sequence : JsNumber
  runId : String
  targetId : String
  trigger : BackupTrigger
  scheduledFor : Option String
  requestedAt : String
  startedAt : String
  completedAt : Option String
  status : BackupRunStatus
  artifact : Option BackupArtifactSummary
  failureCode : Option String
  deriving DecidableEq

def BackupTrigger.text : BackupTrigger → String
  | manual => "manual"
  | scheduled => "scheduled"

def BackupRunStatus.text : BackupRunStatus → String
  | started => "started"
  | succeeded => "succeeded"
  | failed => "failed"
  | interrupted => "interrupted"

/-- The two kinds of entries: of a backup that has been started, and of one that has ended. -/
inductive RunEntryKind where
  | started
  | terminal
  deriving DecidableEq, Repr

def RunEntryKind.text : RunEntryKind → String
  | started => "started"
  | terminal => "terminal"

/-! ## The check of a record -/

def isHexDigit (c : Char) : Bool := ('0' ≤ c ∧ c ≤ '9') ∨ ('a' ≤ c ∧ c ≤ 'f')

/-- Does a text consist of characters of these classes? -/
def matchesClasses (classes : List (Char → Bool)) (text : String) : Bool :=
  text.toList.length = classes.length && (classes.zip text.toList).all fun p => p.1 p.2

/-- The pattern of a run id, a UUID. -/
def isRunId (text : String) : Bool :=
  let hex (n : Nat) := List.replicate n isHexDigit
  let dash : List (Char → Bool) := [fun c => c = '-']
  let version : List (Char → Bool) := [fun c => '1' ≤ c ∧ c ≤ '5']
  let variant : List (Char → Bool) := [fun c => c ∈ ['8', '9', 'a', 'b']]
  matchesClasses (hex 8 ++ dash ++ hex 4 ++ dash ++ version ++ hex 3 ++ dash ++ variant ++ hex 3 ++
    dash ++ hex 12) text

/-- The pattern of the name of a target: words of letters and digits between dashes. -/
def isTargetId (text : String) : Bool :=
  (text.toList.splitOn '-').all fun word =>
    word ≠ [] && word.all fun c => ('a' ≤ c ∧ c ≤ 'z') ∨ ('0' ≤ c ∧ c ≤ '9')

def isSha256 (text : String) : Bool := matchesClasses (List.replicate 64 isHexDigit) text

section Validate

variable (dateParses : String → Bool)

/-- `validateRun`; `dateParses` are the texts that `Date.parse` takes. -/
def validateRun (run : BackupRun) (kind : RunEntryKind) : Bool :=
  (match run.sequence.safeInteger? with
    | some sequence => sequence ≥ 1
    | none => false) &&
  isRunId run.runId && isTargetId run.targetId &&
  dateParses run.requestedAt && dateParses run.startedAt && run.scheduledFor.all dateParses &&
  match kind with
  | .started =>
    run.status = .started && run.completedAt = none && run.artifact = none && run.failureCode = none
  | .terminal =>
    run.status ≠ .started && run.completedAt.any dateParses &&
      if run.status = .succeeded then
        run.failureCode = none &&
          match run.artifact with
          | some artifact => isSha256 artifact.manifestSha256
          | none => false
      else run.artifact = none && run.failureCode.isSome

end Validate

/-! ## Entries -/

/-- An entry of the log. -/
structure RunEntry where
  kind : RunEntryKind
  run : BackupRun
  deriving DecidableEq

def textOrNull : Option String → JsValue
  | some text => .str text
  | none => .null

def BackupArtifactSummary.toJs (artifact : BackupArtifactSummary) : JsValue :=
  .obj [("fileCount", artifact.fileCount.toJs), ("totalBytes", artifact.totalBytes.toJs),
    ("manifestSha256", .str artifact.manifestSha256), ("completedAt", .str artifact.completedAt)]

def artifactOrNull : Option BackupArtifactSummary → JsValue
  | some artifact => artifact.toJs
  | none => .null

/-- What the text of a record reads as. -/
def BackupRun.toJs (run : BackupRun) : JsValue :=
  .obj [("sequence", run.sequence.toJs), ("runId", .str run.runId), ("targetId", .str run.targetId),
    ("trigger", .str run.trigger.text), ("scheduledFor", textOrNull run.scheduledFor),
    ("requestedAt", .str run.requestedAt), ("startedAt", .str run.startedAt),
    ("completedAt", textOrNull run.completedAt), ("status", .str run.status.text),
    ("artifact", artifactOrNull run.artifact), ("failureCode", textOrNull run.failureCode)]

def RunEntry.toJs (entry : RunEntry) : JsValue :=
  .obj [("kind", .str entry.kind.text), ("run", entry.run.toJs)]

def readNumber : JsValue → Option JsNumber
  | .num q => some (.finite q)
  | _ => none

def readText : JsValue → Option String
  | .str text => some text
  | _ => none

def readTextOrNull : JsValue → Option (Option String)
  | .str text => some (some text)
  | .null => some none
  | _ => none

def readTrigger : JsValue → Option BackupTrigger :=
  oneOf [.manual, .scheduled] BackupTrigger.text

def readStatus : JsValue → Option BackupRunStatus :=
  oneOf [.started, .succeeded, .failed, .interrupted] BackupRunStatus.text

def readKind : JsValue → Option RunEntryKind := oneOf [.started, .terminal] RunEntryKind.text

def readArtifact : JsValue → Option (Option BackupArtifactSummary)
  | .null => some none
  | .obj fields => do
    guard (fields.length = 4)
    let fileCount ← readNumber (field fields "fileCount")
    let totalBytes ← readNumber (field fields "totalBytes")
    let manifestSha256 ← readText (field fields "manifestSha256")
    let completedAt ← readText (field fields "completedAt")
    return some { fileCount, totalBytes, manifestSha256, completedAt }
  | _ => none

/-- The record of a value with the fields of one and of their types; everything
else fails the check of a record. -/
def readRun (value : JsValue) : Option BackupRun := do
  let fields ← value.asRecord
  guard (fields.length = 11)
  let sequence ← readNumber (field fields "sequence")
  let runId ← readText (field fields "runId")
  let targetId ← readText (field fields "targetId")
  let trigger ← readTrigger (field fields "trigger")
  let scheduledFor ← readTextOrNull (field fields "scheduledFor")
  let requestedAt ← readText (field fields "requestedAt")
  let startedAt ← readText (field fields "startedAt")
  let completedAt ← readTextOrNull (field fields "completedAt")
  let status ← readStatus (field fields "status")
  let artifact ← readArtifact (field fields "artifact")
  let failureCode ← readTextOrNull (field fields "failureCode")
  return { sequence, runId, targetId, trigger, scheduledFor, requestedAt, startedAt, completedAt,
           status, artifact, failureCode }

/-- The entry that a value is, `isEntry` and the fields of its record. -/
def readEntry (value : JsValue) : Option RunEntry := do
  let fields ← value.asRecord
  guard (fields.length = 2)
  let kind ← readKind (field fields "kind")
  let run ← readRun (field fields "run")
  return { kind, run }

/-- Are all numbers of a record finite? -/
def BackupRun.IsFinite (run : BackupRun) : Prop :=
  (∃ q, run.sequence = .finite q) ∧ ∀ artifact ∈ run.artifact,
    (∃ q, artifact.fileCount = .finite q) ∧ ∃ q, artifact.totalBytes = .finite q

@[simp] theorem readTextOrNull_textOrNull (text : Option String) :
    readTextOrNull (textOrNull text) = some text := by
  cases text <;> rfl

theorem readArtifact_artifactOrNull {artifact : Option BackupArtifactSummary}
    (h : ∀ summary ∈ artifact,
      (∃ q, summary.fileCount = .finite q) ∧ ∃ q, summary.totalBytes = .finite q) :
    readArtifact (artifactOrNull artifact) = some artifact := by
  cases artifact with
  | none => rfl
  | some summary =>
      obtain ⟨⟨files, hfiles⟩, bytes, hbytes⟩ := h summary rfl
      obtain ⟨fileCount, totalBytes, manifestSha256, completedAt⟩ := summary
      obtain rfl : fileCount = .finite files := hfiles
      obtain rfl : totalBytes = .finite bytes := hbytes
      rfl

/-- **Round trip** of a record with finite numbers. -/
theorem readRun_toJs {run : BackupRun} (h : run.IsFinite) : readRun run.toJs = some run := by
  obtain ⟨sequence, runId, targetId, trigger, scheduledFor, requestedAt, startedAt, completedAt,
    status, artifact, failureCode⟩ := run
  obtain ⟨⟨q, rfl⟩, hartifact⟩ := h
  have htrigger : readTrigger (.str trigger.text) = some trigger := by
    cases trigger <;> decide
  have hstatus : readStatus (.str status.text) = some status := by
    cases status <;> decide
  change (do
    let trigger ← readTrigger (.str trigger.text)
    let scheduledFor ← readTextOrNull (textOrNull scheduledFor)
    let completedAt ← readTextOrNull (textOrNull completedAt)
    let status ← readStatus (.str status.text)
    let artifact ← readArtifact (artifactOrNull artifact)
    let failureCode ← readTextOrNull (textOrNull failureCode)
    return (⟨.finite q, runId, targetId, trigger, scheduledFor, requestedAt, startedAt,
      completedAt, status, artifact, failureCode⟩ : BackupRun)) = _
  rw [htrigger, hstatus, readArtifact_artifactOrNull hartifact]
  simp

theorem readEntry_toJs {entry : RunEntry} (h : entry.run.IsFinite) :
    readEntry entry.toJs = some entry := by
  obtain ⟨kind, run⟩ := entry
  have hkind : readKind (.str kind.text) = some kind := by
    cases kind <;> decide
  change (do
    let kind ← readKind (.str kind.text)
    let run ← readRun run.toJs
    return (⟨kind, run⟩ : RunEntry)) = _
  rw [hkind, readRun_toJs h]
  rfl

end AtlasManager.Backup
