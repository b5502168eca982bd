import AtlasManager.Lib.Ledger
import AtlasManager.Power.ShutdownExecution

/-!
# AtlasManager.Power.SchedulerStores

The two files of the machine power scheduler, claims and cursor, and the system
in which the ports of power management are these files and an outside world that
may do anything.

* `claim`, `pruneCompletedThrough`, `readCursor`, `advance` -- the stores;
* `systemStep`, `implementation` -- the system.
-/

namespace AtlasManager.Power

open AtlasManager.Lib

/-! ## The claim store -/

abbrev ClaimCall := FileCall (List MachineShutdownOccurrence)
abbrev CursorCall := FileCall MachinePowerSchedulerCursor

section Stores

variable {ε : Type} (error : FileStoreErrorCode → ε) (localeCompare : LocaleCompare)

def compareClaims (left right : MachineShutdownOccurrence) : Ordering :=
  (localeCompare left.scheduledFor.text right.scheduledFor.text).then <|
  (localeCompare left.wakeScheduledFor.text right.wakeScheduledFor.text).then <|
  localeCompare "shutdown" "shutdown"

def sortClaims (claims : List MachineShutdownOccurrence) : List MachineShutdownOccurrence :=
  claims.mergeSort fun left right => compareClaims localeCompare left right ≠ .gt

/-- `parse`: no claim is repeated right after itself, and sorting changes nothing. -/
def isClaimDocument (claims : List MachineShutdownOccurrence) : Bool :=
  (claims.zip claims.tail).all (fun (previous, claim) => claim ≠ previous) &&
    (claims.zip (sortClaims localeCompare claims)).all fun (claim, sorted) =>
      compareClaims localeCompare claim sorted = .eq

def claimResult : MachineShutdownOccurrenceClaimOutcome → JsValue
  | .claimed => .obj [("outcome", .str "claimed")]
  | .duplicate => .obj [("outcome", .str "duplicate")]

def claim (occurrence : MachineShutdownOccurrence) : Prog ClaimCall FileAnswer ε JsValue :=
  claimIn error (isClaimDocument localeCompare) (sortClaims localeCompare) (claimResult .claimed)
    (claimResult .duplicate) occurrence

/-- The claims that the cursor has passed are dropped; the times are compared as texts. -/
def pruneCompletedThrough (cursor : MachinePowerSchedulerCursor) :
    Prog ClaimCall FileAnswer ε MachineShutdownOccurrenceClaimPruningOutcome :=
  pruneIn error (isClaimDocument localeCompare)
    (fun claim => cursor.completedThrough.text < claim.scheduledFor.text) .pruned .unchanged

/-! ## The cursor store -/

def readCursor : Prog CursorCall FileAnswer ε (Option MachinePowerSchedulerCursor) :=
  readDocument error fun _ => true

def advance (nonForward : ε) (expected : Option MachinePowerSchedulerCursor)
    (next : MachinePowerSchedulerCursor) :
    Prog CursorCall FileAnswer ε MachinePowerSchedulerCursorResult :=
  advanceIn error (fun current next => current.completedThrough.text < next.completedThrough.text)
    nonForward .advanced .conflict expected next

end Stores

/-! ## The system -/

abbrev PowerWorld := LedgerWorld PowerCall PowerAnswer MachineShutdownOccurrenceExecutionFailure
  MachineShutdownOccurrence MachinePowerSchedulerCursor

abbrev SystemCall := LedgerCall PowerCall MachineShutdownOccurrence MachinePowerSchedulerCursor

abbrev SystemProg (α : Type) :=
  Prog SystemCall (LedgerAnswer PowerAnswer) MachineShutdownOccurrenceExecutionFailure α

/-- The ports other than the stores answer anything. -/
def systemStep : Prog.Handler SystemCall (LedgerAnswer PowerAnswer)
    MachineShutdownOccurrenceExecutionFailure PowerWorld :=
  ledgerStep (Answers fun _ => True)

/-- The callers of the stores do not tell their errors apart. -/
def storeError : FileStoreErrorCode → MachineShutdownOccurrenceExecutionFailure :=
  fun _ => .unexpectedExecutionFailure

/-- The ports: the stores are files, the others are outside. -/
def implementation (localeCompare : LocaleCompare) :
    (call : PowerCall) → SystemProg (PowerAnswer call)
  | .claim occurrence => inClaimFile (claim storeError localeCompare occurrence)
  | .pruneCompletedThrough cursor =>
    inClaimFile (pruneCompletedThrough storeError localeCompare cursor)
  | .readCursor => inCursorFile (readCursor storeError)
  | .advanceCursor expected next =>
    inCursorFile (advance storeError .unexpectedExecutionFailure expected next)
  | call => Prog.perform (.port call : SystemCall)

end AtlasManager.Power
