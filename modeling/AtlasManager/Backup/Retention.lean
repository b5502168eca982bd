import AtlasManager.Backup.RunStores
import AtlasManager.Backup.BackupTarget
import AtlasManager.Lib.ArraySort
import AtlasManager.Lib.Prog

/-!
# AtlasManager.Backup.Retention

The retention of a target: the artifacts of its older successful backups are removed.

* `execute` -- a retention run, as a program over its ports;
* `retentionAnswers` -- what the ports may answer;
* `removals` -- the removals that a run has asked for.
-/

namespace AtlasManager.Backup.Retention

open AtlasManager.Lib

/-! ## Ports -/

structure ManagedBackupArtifact where
  targetId : String
  runId : String
  completedAt : String
  manifestSha256 : String
  deriving DecidableEq

inductive RetentionOutcome where
  | completed
  | busy
  | blocked
  | partially
  deriving DecidableEq, Repr

structure BackupRetentionResult where
  targetId : String
  processedCount : Nat
  deletedCount : Nat
  result : RetentionOutcome
  deriving DecidableEq

inductive RetentionCall where
  | findById (targetId : String)
  | tryAcquire
  | query (input : BackupRunQuery)
  | listManaged (targetId : String)
  | now
  | removeManaged (targetId runId : String)
  | release

abbrev RetentionCall.Answer : RetentionCall → Type
  | findById _ => Option BackupTarget
  | tryAcquire => Bool
  | query _ => List BackupRun
  | listManaged _ => List ManagedBackupArtifact
  | now => Int
  | removeManaged _ _ => Unit
  | release => Unit

abbrev RetentionProg := Prog RetentionCall RetentionCall.Answer String

def ask (call : RetentionCall) : RetentionProg call.Answer := Prog.perform call

abbrev RetentionLog := Prog.Log RetentionCall RetentionCall.Answer String

/-- What the language supplies: `dateOf` is `Date.parse`, without a date for `NaN`. -/
structure Runtime where
  dateOf : String → Option Int
  localeCompare : String → String → Ordering
  sortRuns : ArraySort BackupRun
  sortArtifacts : ArraySort ManagedBackupArtifact
  consistent : ∀ texts, ConsistentOn localeCompare texts

/-! ## The runs of a target -/

def pageQuery (targetId : String) (afterSequence : JsNumber) : BackupRunQuery where
  afterSequence := some afterSequence
  limit := some (.finite 100)
  targetId := some targetId
  status := some .succeeded
  trigger := none
  startedFrom := none
  startedTo := none

/-- Has the sequence number not grown? -/
def notAfter (sequence afterSequence : JsNumber) : Bool :=
  sequence.lt afterSequence || (sequence = afterSequence && sequence ≠ .nan)

/-- The loop over the pages of successful runs, so many of them at most. -/
def collectRuns (targetId : String) :
    Nat → JsNumber → List BackupRun → RetentionProg (List BackupRun)
  | 0, _, _ => .throw "unfinished"
  | pages + 1, afterSequence, runs => do
    let page ← ask (.query (pageQuery targetId afterSequence))
    let runs := runs ++ page.filter (·.artifact.isSome)
    if page.length < 100 then return runs
    else
      match page.getLast? with
      | none => .throw "backup_run_history_corrupt"
      | some last =>
        if notAfter last.sequence afterSequence then .throw "backup_run_history_corrupt"
        else collectRuns targetId pages last.sequence runs

/-! ## What is removed -/

/-- `a - b || otherwise` of two dates. -/
def compareDates : Option Int → Option Int → Ordering → Ordering
  | some a, some b, otherwise => if a = b then otherwise else compare a b
  | _, _, otherwise => otherwise

section Runtime

variable (runtime : Runtime)

def dateOfRun (run : BackupRun) : Option Int := run.completedAt.bind runtime.dateOf

/-- The order of runs, the newest first. -/
def compareRuns (left right : BackupRun) : Ordering :=
  compareDates (dateOfRun runtime right) (dateOfRun runtime left)
    (compare right.number left.number)

/-- The order of artifacts, the oldest first. -/
def compareArtifacts (left right : ManagedBackupArtifact) : Ordering :=
  compareDates (runtime.dateOf left.completedAt) (runtime.dateOf right.completedAt)
    (runtime.localeCompare left.runId right.runId)

def tooOld (retention : BackupRetentionPolicy) (now : Int) (artifact : ManagedBackupArtifact) : Bool :=
  match retention.maxSuccessfulAgeDays, runtime.dateOf artifact.completedAt with
  | some days, some completedAt => now - completedAt > days * 86400000
  | _, _ => false

/-- The artifacts to remove, when `runs` are the successful runs in their order. -/
def deletion (retention : BackupRetentionPolicy) (now : Int) (runs : List BackupRun)
    (artifacts : List ManagedBackupArtifact) : List ManagedBackupArtifact :=
  let protectedRunIds := (runs.take retention.keepLastSuccessful).map (·.runId)
  artifacts.filter fun artifact =>
    if artifact.runId ∈ protectedRunIds then false
    else tooOld runtime retention now artifact || runs.any (·.runId = artifact.runId)

/-- The loop over the artifacts to remove. -/
def removeAll (targetId : String) (processedCount : Nat) :
    List ManagedBackupArtifact → Nat → RetentionProg BackupRetentionResult
  | [], deletedCount => return ⟨targetId, processedCount, deletedCount, .completed⟩
  | artifact :: artifacts, deletedCount => do
    match ← (ask (.removeManaged targetId artifact.runId)).attempt with
    | .ok _ => removeAll targetId processedCount artifacts (deletedCount + 1)
    | .error _ => return ⟨targetId, processedCount, deletedCount,
        if deletedCount = 0 then .blocked else .partially⟩

/-- The block under the gate. -/
def applyRetention (pages : Nat) (target : BackupTarget) (targetId : String) :
    RetentionProg BackupRetentionResult := do
  let runs ← collectRuns targetId pages (.finite 0) []
  let runs := runtime.sortRuns.sort (compareRuns runtime) runs
  let artifacts ← ask (.listManaged targetId)
  if artifacts.any fun artifact => runs.all (·.runId ≠ artifact.runId) then
    return ⟨targetId, artifacts.length, 0, .blocked⟩
  else
    let now ← ask .now
    let deletion := deletion runtime target.retention now runs artifacts
    removeAll targetId artifacts.length
      (runtime.sortArtifacts.sort (compareArtifacts runtime) deletion) 0

/-- `execute`, looking at so many pages of runs at most. -/
def execute (pages : Nat) (targetId : String) : RetentionProg BackupRetentionResult := do
  match ← ask (.findById targetId) with
  | none => .throw "registered_backup_target_not_found"
  | some target =>
    if ← ask .tryAcquire then
      let result ← (applyRetention runtime pages target targetId).attempt
      ask .release
      Prog.ofExcept result
    else return ⟨targetId, 0, 0, .busy⟩

end Runtime

/-! ## Runs -/

/-- What the ports may answer: the catalog knows the target, the store has the records
`history`, and `artifacts` are listed; any call of the stores may fail. -/
def retentionAnswers (target : BackupTarget) (history : InMemoryBackupRunStore)
    (artifacts : List ManagedBackupArtifact) :
    (call : RetentionCall) → Except String call.Answer → Prop
  | .findById targetId, answer => answer = .ok (if targetId = target.id then some target else none)
  | .tryAcquire, answer => ∃ acquired, answer = .ok acquired
  | .query input, answer => answer = history.query input ∨ ∃ error, answer = .error error
  | .listManaged _, answer => answer = .ok artifacts ∨ ∃ error, answer = .error error
  | .now, answer => ∃ instant, answer = .ok instant
  | .removeManaged _ _, _ => True
  | .release, answer => answer = .ok ()

/-- The removal that an event is, and whether it has succeeded.  A removal that fails leaves
the artifact. -/
def removal? : Prog.Event RetentionCall RetentionCall.Answer String → Option (String × Bool)
  | ⟨.removeManaged _ runId, answer⟩ => some (runId, answer.isOk)
  | _ => none

/-- The removals of a run, the first one first. -/
def removals (log : RetentionLog) : List (String × Bool) := (log.filterMap removal?).reverse

end AtlasManager.Backup.Retention
