import AtlasManager.Backup.BackupTarget
import AtlasManager.Backup.SchedulerStores

/-!
# AtlasManager.Backup.SchedulerTick

The backup scheduler: every tick claims and runs the occurrences between the
stored cursor and the clock, and moves the cursor to the clock.

* `RunBackupSchedulerTick.execute` -- a tick;
* `backupStep` -- what its calls do, with the two stores in their files;
* `BackupTicks` -- ticks one after another, each of which may stop anywhere, and
  restarts of the process in between.
-/

namespace AtlasManager.Backup

open AtlasManager.Lib AtlasManager.Scheduling

/-! ## The tick -/

inductive BackupClaimResult where
  | claimed
  | duplicate
  deriving DecidableEq, Repr

inductive BackupCall where
  | readCursor
  | compareAndSet (expected : Option Timestamp) (next : Timestamp)
  | claim (occurrence : BackupOccurrence)
  | execute (occurrence : BackupOccurrence)

abbrev BackupAnswer : BackupCall → Type
  | .readCursor => Option Timestamp
  | .compareAndSet _ _ => Bool
  | .claim _ => BackupClaimResult
  | .execute _ => Unit

/-- Programs of the scheduler; nobody looks into the errors they throw. -/
abbrev BackupProg := Prog BackupCall BackupAnswer Unit

def ask (call : BackupCall) : BackupProg (BackupAnswer call) := Prog.perform call

inductive BackupTickOutcome where
  | idle
  | initialized
  | advanced
  | incomplete
  | conflict
  deriving DecidableEq, Repr

structure BackupSchedulerTickResult where
  result : BackupTickOutcome
  processedCount : Nat
  duplicateCount : Nat
  deriving DecidableEq, Repr

namespace RunBackupSchedulerTick

/-- The loop over the occurrences, with the numbers of the processed ones and of
the duplicates; it stops where a backup fails. -/
def processOccurrences :
    List BackupOccurrence → Nat → Nat → BackupProg (Bool × Nat × Nat)
  | [], processedCount, duplicateCount => return (true, processedCount, duplicateCount)
  | occurrence :: occurrences, processedCount, duplicateCount => do
    match ← ask (.claim occurrence) with
    | .duplicate => processOccurrences occurrences processedCount (duplicateCount + 1)
    | .claimed =>
      match ← (ask (.execute occurrence)).attempt with
      | .ok _ => processOccurrences occurrences (processedCount + 1) duplicateCount
      | .error _ => return (false, processedCount, duplicateCount)

variable (zone : Zone) (localeCompare : String → String → Ordering)

/-- A tick, `isActive` when another one is under way; the catalog lists `targets`
and the clock shows `now`. -/
def execute (isActive : Bool) (targets : List BackupTarget) (now : Timestamp) :
    BackupProg BackupSchedulerTickResult :=
  if isActive then return ⟨.conflict, 0, 0⟩
  else do
    match ← ask .readCursor with
    | none =>
      if ← ask (.compareAndSet none now) then return ⟨.initialized, 0, 0⟩ else return ⟨.conflict, 0, 0⟩
    | some cursor =>
      let occurrences :=
        (dueOccurrences zone localeCompare targets cursor now).take maximumOccurrences
      let (isComplete, processedCount, duplicateCount) ← processOccurrences occurrences 0 0
      if !isComplete then return ⟨.incomplete, processedCount, duplicateCount⟩
      else
        if !(← ask (.compareAndSet (some cursor) now)) then
          return ⟨.conflict, processedCount, duplicateCount⟩
        else return ⟨if occurrences.isEmpty then .idle else .advanced, processedCount, duplicateCount⟩

end RunBackupSchedulerTick

/-! ## The world of the ticks -/

/-- The stores, the occurrences for which a backup has been started, and those
whose claims have been answered. -/
structure BackupWorld where
  cursor : CursorState
  claims : ClaimState
  started : List BackupOccurrence
  offered : List BackupOccurrence

/-- The key of an occurrence. -/
def BackupOccurrence.key (occurrence : BackupOccurrence) : String :=
  claimKey occurrence.targetId occurrence.scheduledFor.text

/-- What the claim store has answered. -/
def claimAnswer : Except Unit BackupClaimResult → ClaimAnswer
  | .ok .claimed => .claimed
  | .ok .duplicate => .duplicate
  | .error _ => .failed

/-- What the calls do.  A backup that fails may have been started or not. -/
def backupStep : Prog.Handler BackupCall BackupAnswer Unit BackupWorld
  | world, .readCursor, answer, world' =>
    ∃ cursor, ReadsCursor world.cursor answer.toOption cursor ∧ world' = { world with cursor }
  | world, .compareAndSet expected next, answer, world' =>
    ∃ cursor, SetsCursor expected next world.cursor answer.toOption cursor ∧
      world' = { world with cursor }
  | world, .claim occurrence, answer, world' =>
    ∃ claims, Claims occurrence.targetId occurrence.scheduledFor.text world.claims
        (claimAnswer answer) claims ∧
      world' = { world with
        claims
        offered := if answer.isOk then occurrence :: world.offered else world.offered }
  | world, .execute occurrence, answer, world' =>
    world' = { world with started := occurrence :: world.started } ∨
      answer = .error () ∧ world' = world

namespace BackupWorld

/-- Two files, in a process that has just started. -/
def opened (cursor : Option (Content Timestamp)) (claims : ClaimFile) : BackupWorld where
  cursor := .opened cursor
  claims := { file := claims, claims := [], isLoaded := false }
  started := []
  offered := []

/-- The process is started again. -/
def restarted (world : BackupWorld) : BackupWorld where
  cursor := .opened world.cursor.file
  claims := { file := world.claims.file, claims := [], isLoaded := false }
  started := world.started
  offered := world.offered

/-- The cursor that is on file. -/
def persistedCursor (world : BackupWorld) : Option Timestamp := documentIn world.cursor.file

end BackupWorld

/-! ## Runs -/

/-- A tick of a run: what the catalog listed, the cursor on file before and after
it, and the claims that had been answered by then. -/
structure BackupTick where
  targets : List BackupTarget
  before : Option Timestamp
  after : Option Timestamp
  offered : List BackupOccurrence

section Runs

variable (zone : Zone) (localeCompare : String → String → Ordering)

/-- Ticks and restarts one after another, the latest tick first.  A tick may end or stop
anywhere, the clock may show any time, and the catalog may list any targets; `ok` is
what is known at its start of every tick that is not turned away. -/
inductive BackupTicks (ok : BackupWorld → List BackupTarget → Timestamp → Prop)
    (start : BackupWorld) : List BackupTick → BackupWorld → Prop where
  | start : BackupTicks ok start [] start
  | tick {ticks world world'} (isActive : Bool) (targets : List BackupTarget) (now : Timestamp) :
      BackupTicks ok start ticks world → (isActive = false → ok world targets now) →
      Prog.Reach backupStep
        (RunBackupSchedulerTick.execute zone localeCompare isActive targets now) world world' →
      BackupTicks ok start
        (⟨targets, world.persistedCursor, world'.persistedCursor, world'.offered⟩ :: ticks) world'
  | restart {ticks world} :
      BackupTicks ok start ticks world → BackupTicks ok start ticks world.restarted

end Runs

/-! ## Calls that all succeed -/

/-- The stores and the backups when no call fails. -/
def BackupWorld.serve (world : BackupWorld) :
    (call : BackupCall) → Except Unit (BackupAnswer call) × BackupWorld
  | .readCursor =>
    match world.cursor.load with
    | (true, cursor) => (.ok cursor.value, { world with cursor })
    | (false, cursor) => (.error (), { world with cursor })
  | .compareAndSet expected next =>
    match world.cursor.load with
    | (false, cursor) => (.error (), { world with cursor })
    | (true, cursor) =>
      if cursor.value = expected then
        (.ok true, { world with
          cursor := { cursor with file := some (.document next), value := some next } })
      else (.ok false, { world with cursor })
  | .claim occurrence =>
    match claim occurrence.targetId occurrence.scheduledFor.text world.claims with
    | (.claimed, claims) =>
      (.ok .claimed, { world with claims, offered := occurrence :: world.offered })
    | (.duplicate, claims) =>
      (.ok .duplicate, { world with claims, offered := occurrence :: world.offered })
    | (.failed, claims) => (.error (), { world with claims })
  | .execute occurrence => (.ok (), { world with started := occurrence :: world.started })

theorem backupStep_serve (world : BackupWorld) (call : BackupCall) :
    backupStep world call (world.serve call).1 (world.serve call).2 := by
  cases call with
  | readCursor =>
      have hload := loads_load world.cursor
      dsimp only [BackupWorld.serve]
      generalize world.cursor.load = loaded at hload ⊢
      obtain ⟨_ | _, cursor⟩ := loaded
      · exact ⟨cursor, .inr ⟨hload, rfl⟩, rfl⟩
      · exact ⟨cursor, .inl ⟨hload, rfl⟩, rfl⟩
  | compareAndSet expected next =>
      have hload := loads_load world.cursor
      dsimp only [BackupWorld.serve]
      generalize world.cursor.load = loaded at hload ⊢
      obtain ⟨_ | _, cursor⟩ := loaded
      · exact ⟨cursor, .loadFails hload, rfl⟩
      · dsimp only
        split
        · next hvalue => exact ⟨_, .sets hload hvalue, rfl⟩
        · next hvalue => exact ⟨_, .conflict hload hvalue, rfl⟩
  | claim occurrence =>
      have hclaim := claims_claim occurrence.targetId occurrence.scheduledFor.text world.claims
      dsimp only [BackupWorld.serve]
      generalize claim occurrence.targetId occurrence.scheduledFor.text world.claims = claimed
        at hclaim ⊢
      obtain ⟨_ | _ | _, claims⟩ := claimed
      · exact ⟨claims, hclaim, rfl⟩
      · exact ⟨claims, hclaim, rfl⟩
      · exact ⟨claims, hclaim, rfl⟩
  | execute occurrence => exact .inl rfl

end AtlasManager.Backup
