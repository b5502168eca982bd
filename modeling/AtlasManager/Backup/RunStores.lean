import AtlasManager.Backup.BackupRun

/-!
# AtlasManager.Backup.RunStores

The two stores of the backup runs: one in memory, and one that keeps a log in a
file and a store in memory with what the log says.

* `InMemoryBackupRunStore` -- the store in memory;
* `replay` -- the store that a log stands for, if it is one;
* `FileBackupRunStore.perform` -- an operation of the store with the log, and what
  it does when a call of the file system fails.
-/

namespace AtlasManager.Backup

open AtlasManager.Lib

/-! ## In memory -/

/-- The records of ended and of started backups, in the order in which they came. -/
structure InMemoryBackupRunStore where
  runs : List BackupRun
  started : List BackupRun
  deriving DecidableEq

structure BackupRunQuery where
  afterSequence : Option JsNumber
  limit : Option JsNumber
  targetId : Option String
  status : Option BackupRunStatus
  trigger : Option BackupTrigger
  startedFrom : Option String
  startedTo : Option String

structure BackupRunStoreSnapshot where
  runs : List BackupRun
  active : Bool
  interrupted : List BackupRun
  deriving DecidableEq

/-- The sequence number of a record that has been stored, which is a safe integer. -/
def BackupRun.number (run : BackupRun) : Int := run.sequence.safeInteger?.getD 0

/-- A backup that has been started and has not ended, as it is shown. -/
def BackupRun.interrupted (run : BackupRun) : BackupRun :=
  { run with status := .interrupted, failureCode := some "interrupted_run" }

/-- The number that comes after all others. -/
def nextAfter (numbers : List Int) : Int :=
  match numbers.max? with
  | none => 1
  | some last => last + 1

def sortRuns (runs : List BackupRun) : List BackupRun :=
  runs.mergeSort fun left right => left.number ≤ right.number

namespace InMemoryBackupRunStore

def empty : InMemoryBackupRunStore := ⟨[], []⟩

variable (store : InMemoryBackupRunStore)

def allocateNextSequence : Int := nextAfter ((store.runs ++ store.started).map (·.number))

def assertSequence (sequence : JsNumber) : Except String Unit :=
  match sequence.safeInteger? with
  | none => .error "backup_sequence_invalid"
  | some number =>
    if number < 1 then .error "backup_sequence_invalid"
    else if number ≠ store.allocateNextSequence then .error "backup_sequence_conflict"
    else .ok ()

def has (runs : List BackupRun) (runId : String) : Bool := runs.any fun run => run.runId = runId

def get (runs : List BackupRun) (runId : String) : Option BackupRun :=
  runs.find? fun run => run.runId = runId

def appendStarted (run : BackupRun) : Except String InMemoryBackupRunStore :=
  if run.status ≠ .started ∨ has store.runs run.runId ∨ has store.started run.runId then
    .error "backup_run_transition_invalid"
  else
    match store.assertSequence run.sequence with
    | .error error => .error error
    | .ok _ => .ok { store with started := store.started ++ [run] }

def appendTerminal (run : BackupRun) : Except String InMemoryBackupRunStore :=
  match get store.started run.runId with
  | none => .error "backup_run_transition_invalid"
  | some started =>
    if run.status = .started ∨ has store.runs run.runId ∨ run.sequence ≠ started.sequence then
      .error "backup_run_transition_invalid"
    else .ok {
      runs := store.runs ++ [run]
      started := store.started.filter fun other => other.runId ≠ run.runId }

def getByRunId (runId : String) : Option BackupRun :=
  get store.runs runId <|> get store.started runId

def query (input : BackupRunQuery) : Except String (List BackupRun) :=
  let limit := match input.limit.getD (.finite 50) with
    | .finite q => if q.den = 1 ∧ 1 ≤ q.num ∧ q.num ≤ 100 then some q.num.toNat else none
    | _ => none
  match limit with
  | none => .error "backup_query_invalid"
  | some limit =>
    let selected := (store.runs ++ store.started.map (·.interrupted)).filter fun run =>
      (input.afterSequence.getD (.finite 0)).lt run.sequence &&
      input.targetId.all (run.targetId = ·) && input.status.all (run.status = ·) &&
      input.trigger.all (run.trigger = ·) && input.startedFrom.all (textLe · run.startedAt) &&
      input.startedTo.all (textLe run.startedAt ·)
    .ok ((sortRuns selected).take limit)

def reconstruct : BackupRunStoreSnapshot where
  runs := sortRuns store.runs
  active := !store.started.isEmpty
  interrupted := store.started.map (·.interrupted)

/-- The two operations that add a record. -/
def append : RunEntryKind → BackupRun → Except String InMemoryBackupRunStore
  | .started => store.appendStarted
  | .terminal => store.appendTerminal

end InMemoryBackupRunStore

/-! ## Operations -/

inductive RunOperation where
  | append (kind : RunEntryKind) (run : BackupRun)
  | allocateNextSequence
  | getByRunId (runId : String)
  | query (input : BackupRunQuery)
  | reconstruct

inductive RunAnswer where
  | recorded
  | sequence (next : Int)
  | run (run : Option BackupRun)
  | runs (runs : List BackupRun)
  | snapshot (snapshot : BackupRunStoreSnapshot)
  deriving DecidableEq

namespace InMemoryBackupRunStore

/-- The answer of an operation that adds nothing. -/
def read (store : InMemoryBackupRunStore) : RunOperation → Except String RunAnswer
  | .append _ _ => .ok .recorded
  | .allocateNextSequence => .ok (.sequence store.allocateNextSequence)
  | .getByRunId runId => .ok (.run (store.getByRunId runId))
  | .query input => (store.query input).map .runs
  | .reconstruct => .ok (.snapshot store.reconstruct)

def perform (store : InMemoryBackupRunStore) :
    RunOperation → Except String RunAnswer × InMemoryBackupRunStore
  | .append kind run =>
    match store.append kind run with
    | .error error => (.error error, store)
    | .ok store => (.ok .recorded, store)
  | operation => (store.read operation, store)

end InMemoryBackupRunStore

/-! ## The log -/

/-- A line of the log: what its text reads as, `none` when it is not JSON, and how long it is. -/
structure LogLine where
  value : Option JsValue
  bytes : Nat
  deriving DecidableEq

abbrev RunLog := List LogLine

def RunLog.size (log : RunLog) : Nat := (log.map fun line => line.bytes + 1).sum

def maximumLineBytes : Nat := 32 * 1024

def maximumFileBytes : Nat := 32 * 1024 * 1024

section Log

variable (dateParses : String → Bool)

/-- The entry that a line is, if it is one. -/
def LogLine.entry? (line : LogLine) : Except String RunEntry :=
  if line.bytes > maximumLineBytes then .error "backup_run_history_line_too_large"
  else
    match line.value with
    | none => .error "Invalid strict JSON"
    | some value =>
      match readEntry value with
      | none => .error "backup_run_history_corrupt"
      | some entry =>
        if validateRun dateParses entry.run entry.kind then .ok entry
        else .error "backup_run_history_corrupt"

/-- The loop of `reconstructFromData`. -/
def replay : RunLog → InMemoryBackupRunStore → Except String InMemoryBackupRunStore
  | [], memory => .ok memory
  | line :: lines, memory =>
    match line.entry? dateParses with
    | .error error => .error error
    | .ok entry =>
      match memory.append entry.kind entry.run with
      | .error error => .error error
      | .ok memory => replay lines memory

/-- `reconstructFromData`. -/
def reconstructFromData : Option RunLog → Except String InMemoryBackupRunStore
  | none => .ok .empty
  | some log => replay dateParses log .empty

end Log

/-! ## With a log -/

inductive RunStoreState where
  | unloaded
  | ready
  | failed (error : String)
  deriving DecidableEq

/-- `snapshot` is the log that the store in memory stands for; nothing has been read
when there is none, and there was no file when it is `some none`. -/
structure FileBackupRunStore where
  memory : InMemoryBackupRunStore
  state : RunStoreState
  snapshot : Option (Option RunLog)

/-- The store, and its file. -/
structure RunStoreWorld where
  store : FileBackupRunStore
  file : Option RunLog

/-- Which calls of the file system fail during an operation: a lock that cannot be had has
an error, and an append leaves a file. -/
structure RunStoreFaults where
  lock : Option String
  read : Bool
  readAgain : Bool
  append : Option (Option RunLog)
  refresh : Bool
  unlock : Bool

/-- No call fails. -/
def RunStoreFaults.none : RunStoreFaults := ⟨.none, false, false, .none, false, false⟩

/-- Is every line of the previous log a line of the current one? -/
def isAppendOnlyChange : Option RunLog → Option RunLog → Bool
  | none, current => current.isSome
  | some previous, some current => previous.isPrefixOf current
  | some _, none => false

def readHistory (fault : Bool) (file : Option RunLog) : Except String (Option RunLog) :=
  if fault then .error "backup_run_history_unsafe"
  else
    match file with
    | none => .ok none
    | some log =>
      if log.size > maximumFileBytes then .error "backup_run_history_too_large" else .ok (some log)

namespace RunStoreWorld

/-- A store over a file, in a process that has just started. -/
def opened (file : Option RunLog) : RunStoreWorld where
  store := { memory := .empty, state := .unloaded, snapshot := none }
  file := file

def fail (world : RunStoreWorld) (error : String) : RunStoreWorld :=
  { world with store := { world.store with state := .failed error } }

end RunStoreWorld

namespace FileBackupRunStore

variable (dateParses : String → Bool) (lineBytes : RunEntry → Nat)

/-- Take over what a log stands for. -/
def takeOver (data : Option RunLog) (world : RunStoreWorld) : Except String Unit × RunStoreWorld :=
  match reconstructFromData dateParses data with
  | .error error => (.error error, world.fail error)
  | .ok memory =>
    (.ok (), { world with store := { memory, state := .ready, snapshot := some data } })

def ensureUsable (fault : Bool) (world : RunStoreWorld) : Except String Unit × RunStoreWorld :=
  match world.store.state with
  | .failed error => (.error error, world)
  | .unloaded =>
    match readHistory fault world.file with
    | .error error => (.error error, world.fail error)
    | .ok data => takeOver dateParses data world
  | .ready =>
    match readHistory fault world.file with
    | .error error => (.error error, world)
    | .ok current =>
      if current = world.store.snapshot.getD none then (.ok (), world)
      else if world.store.snapshot.any (!isAppendOnlyChange · current) then
        (.error "backup_run_history_corrupt", world.fail "backup_run_history_corrupt")
      else takeOver dateParses current world

def allocateNextSequence (fault : Bool) (world : RunStoreWorld) :
    Except String Int × RunStoreWorld :=
  match ensureUsable dateParses fault world with
  | (.error error, world) => (.error error, world)
  | (.ok _, world) =>
    let snapshot := world.store.memory.reconstruct
    (.ok (nextAfter (snapshot.runs.map (·.number) ++ snapshot.interrupted.map (·.number))), world)

/-- The check of the sequence number of a record, which only a started one has to pass. -/
def checkSequence (fault : Bool) (run : BackupRun) (world : RunStoreWorld) :
    RunEntryKind → Except String Unit × RunStoreWorld
  | .terminal => (.ok (), world)
  | .started =>
    match allocateNextSequence dateParses fault world with
    | (.error error, world) => (.error error, world)
    | (.ok next, world) =>
      if run.sequence.safeInteger? = some next then (.ok (), world)
      else (.error "backup_sequence_conflict", world)

/-- What comes before the append of an entry: the checks, and the record in memory. -/
def prepare (faults : RunStoreFaults) (entry : RunEntry) (world : RunStoreWorld) :
    Except String Unit × RunStoreWorld :=
  match ensureUsable dateParses faults.read world with
  | (.error error, world) => (.error error, world)
  | (.ok _, world) =>
    if !validateRun dateParses entry.run entry.kind then
      (.error "backup_run_history_corrupt", world)
    else
      match checkSequence dateParses faults.readAgain entry.run world entry.kind with
      | (.error error, world) => (.error error, world)
      | (.ok _, world) =>
        match world.store.memory.append entry.kind entry.run with
        | .error error => (.error error, world.fail error)
        | .ok memory => (.ok (), { world with store := { world.store with memory } })

/-- `append`: the file is created, the length of the line is checked, and the line is written. -/
def append (fault : Option (Option RunLog)) (entry : RunEntry) (file : Option RunLog) :
    Except String Unit × Option RunLog :=
  match fault with
  | some left => (.error "backup_run_history_unavailable", left)
  | none =>
    if lineBytes entry + 1 > maximumLineBytes then
      (.error "backup_run_history_line_too_large", some (file.getD []))
    else (.ok (), some (file.getD [] ++ [⟨some entry.toJs, lineBytes entry⟩]))

def refreshSnapshot (fault : Bool) (world : RunStoreWorld) : Except String Unit × RunStoreWorld :=
  match readHistory fault world.file with
  | .error error => (.error error, world)
  | .ok data => (.ok (), { world with store := { world.store with snapshot := some data } })

/-- The append of an entry that has been prepared. -/
def write (faults : RunStoreFaults) (entry : RunEntry) (world : RunStoreWorld) :
    Except String Unit × RunStoreWorld :=
  match append lineBytes faults.append entry world.file with
  | (.error error, file) => (.error error, { world with file }.fail error)
  | (.ok _, file) => refreshSnapshot faults.refresh { world with file }

/-- `appendStarted` and `appendTerminal`, under the lock of the writers. -/
def record (faults : RunStoreFaults) (entry : RunEntry) (world : RunStoreWorld) :
    Except String Unit × RunStoreWorld :=
  match faults.lock with
  | some error => (.error error, world)
  | none =>
    let (answer, world) := match prepare dateParses faults entry world with
      | (.error error, world) => (.error error, world)
      | (.ok _, world) => write lineBytes faults entry world
    (if faults.unlock then .error "ENOENT" else answer, world)

def perform (faults : RunStoreFaults) (world : RunStoreWorld) :
    RunOperation → Except String RunAnswer × RunStoreWorld
  | .append kind run =>
    let (answer, world) := record dateParses lineBytes faults ⟨kind, run⟩ world
    (answer.map fun _ => .recorded, world)
  | .allocateNextSequence =>
    let (answer, world) := allocateNextSequence dateParses faults.read world
    (answer.map .sequence, world)
  | operation =>
    match ensureUsable dateParses faults.read world with
    | (.error error, world) => (.error error, world)
    | (.ok _, world) => (world.store.memory.read operation, world)

end FileBackupRunStore

end AtlasManager.Backup
