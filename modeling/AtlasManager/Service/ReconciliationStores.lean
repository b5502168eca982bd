import AtlasManager.Lib.Ledger
import AtlasManager.Scheduling.Transitions
import AtlasManager.Service.ReconciliationTick

/-!
# AtlasManager.Service.ReconciliationStores

The two files of the reconciliation scheduler, claims and cursor, and the ports
of the outside world around them.

* `claim`, `pruneCompletedThrough`, `readCursor`, `advance` -- the stores;
* `serviceStep` -- the system of the files and the ports.
-/

namespace AtlasManager.Service

open AtlasManager.Lib AtlasManager.Scheduling

/-! ## Errors -/

/-- How a cycle of the scheduler, or a part of it, fails. -/
inductive ReconciliationFailure where
  /-- thrown by a port -/
  | port (message : String)
  | store (code : FileStoreErrorCode)
  | nonForwardCursor
  | invalidCompletedThrough
  | invalidClockTime
  | clockBeforeCursor
  | registeredServiceNotFound
  | transition (code : TransitionCalculationError)
  | invalidOccurrence
  | invalidEvaluationInstant
  | orchestrationFailed
  deriving DecidableEq

/-! ## The claim store -/

abbrev ReconciliationProg (C : Type) (R : C → Type) (α : Type) := Prog C R ReconciliationFailure α

abbrev ReconciliationClaimCall := FileCall (List ReconciliationOccurrence)

def ReconciliationOperation.text : ReconciliationOperation → String
  | start => "start"
  | stop => "stop"

def compareOccurrences (left right : ReconciliationOccurrence) : Ordering :=
  (compare left.scheduledFor.text right.scheduledFor.text).then <|
  (compare left.serviceId right.serviceId).then <|
  compare left.operation.text right.operation.text

/-- `parseClaimFile`: no claim stands twice, and they are in order. -/
def isReconciliationClaimDocument (claims : List ReconciliationOccurrence) : Bool :=
  claims.Nodup && (claims.zip claims.tail).all fun (previous, occurrence) =>
    compareOccurrences previous occurrence = .lt

def sortOccurrences (claims : List ReconciliationOccurrence) : List ReconciliationOccurrence :=
  claims.mergeSort fun left right => compareOccurrences left right ≠ .gt

inductive ReconciliationClaimResult where
  | claimed
  | duplicate
  deriving DecidableEq, Repr

/-- What pruning the claims came to; `noCursor` when nothing is completed yet. -/
inductive ReconciliationClaimPruningResult where
  | noCursor
  | pruned
  | unchanged
  deriving DecidableEq, Repr

/-- The cursor of the scheduler stands on a full minute. -/
structure ReconciliationCursor where
  completedThrough : Timestamp
  aligned : completedThrough.ms % 60000 = 0
  deriving DecidableEq

def createReconciliationCursor (completedThrough : Timestamp) :
    Except ReconciliationFailure ReconciliationCursor :=
  if h : completedThrough.ms % 60000 = 0 then .ok ⟨completedThrough, h⟩
  else .error .invalidCompletedThrough

def claim (occurrence : ReconciliationOccurrence) :
    ReconciliationProg ReconciliationClaimCall FileAnswer ReconciliationClaimResult :=
  claimIn .store isReconciliationClaimDocument sortOccurrences .claimed .duplicate occurrence

/-- The claims that the cursor has passed are dropped; the times are compared as texts. -/
def pruneCompletedThrough (cursor : ReconciliationCursor) :
    ReconciliationProg ReconciliationClaimCall FileAnswer ReconciliationClaimPruningResult :=
  pruneIn .store isReconciliationClaimDocument
    (fun claim => cursor.completedThrough.text < claim.scheduledFor.text) .pruned .unchanged

/-! ## The cursor store -/

inductive ReconciliationCursorResult where
  | advanced (cursor : ReconciliationCursor)
  | conflict (cursor : Option ReconciliationCursor)
  deriving DecidableEq

def readCursor : ReconciliationProg (FileCall ReconciliationCursor) FileAnswer
    (Option ReconciliationCursor) :=
  readDocument .store fun _ => true

/-- The cursor only moves to a larger text. -/
def advance (expected : Option ReconciliationCursor) (next : ReconciliationCursor) :
    ReconciliationProg (FileCall ReconciliationCursor) FileAnswer ReconciliationCursorResult :=
  advanceIn .store
    (fun current next => current.completedThrough.text < next.completedThrough.text)
    .nonForwardCursor (.advanced next) .conflict expected next

/-! ## The system -/

inductive OverrideRemovalResult where
  | removed
  | notRemoved
  deriving DecidableEq, Repr

/-- The calls that leave the program. -/
inductive ServicePort where
  | list
  | findById (serviceId : String)
  | getGraph
  | findOverride (serviceId : String)
  | removeOverride (serviceId : String) (expected : ServiceAvailabilityOverride)
  | readStatus (service : RegisteredService)
  | now
  /-- The orchestrator is only given the service, the operation and the authority
  `scheduled`; the occurrence says which one it is for. -/
  | orchestrate (occurrence : ReconciliationOccurrence)

abbrev ServicePort.Answer : ServicePort → Type
  | list => List RegisteredService
  | findById _ => Option RegisteredService
  | getGraph => RegisteredServiceDependencyGraph
  | findOverride _ => Option ServiceAvailabilityOverride
  | removeOverride _ _ => OverrideRemovalResult
  | readStatus _ => ServiceRuntimeState
  | now => Date
  -- was it successful?
  | orchestrate _ => Bool

abbrev ServiceCall := LedgerCall ServicePort ReconciliationOccurrence ReconciliationCursor

abbrev ServiceLog := Prog.Log ServicePort ServicePort.Answer ReconciliationFailure

abbrev ServiceWorld := LedgerWorld ServicePort ServicePort.Answer ReconciliationFailure
  ReconciliationOccurrence ReconciliationCursor

abbrev ServiceProg (α : Type) :=
  ReconciliationProg ServiceCall (LedgerAnswer ServicePort.Answer) α

/-- The ports answer anything. -/
def serviceStep : Prog.Handler ServiceCall (LedgerAnswer ServicePort.Answer) ReconciliationFailure
    ServiceWorld :=
  ledgerStep fun _ _ => True

abbrev ask (port : ServicePort) : ServiceProg port.Answer :=
  Prog.perform (.port port : ServiceCall)

end AtlasManager.Service
