import AtlasManager.Power.ShutdownRecords

/-!
# AtlasManager.Power.ReadinessDecision

What keeps a machine from being shut down: blockers, and the decision about an
occurrence that lists them.

* `createMachineShutdownReadinessBlocker` -- the check of one blocker;
* `createMachineShutdownReadinessDecision` -- the decision, its blockers sorted;
* `createMachineShutdownReadinessDecision_outcomeOf` -- it approves exactly when
  nothing was found.
-/

namespace AtlasManager.Power

open AtlasManager.Lib AtlasManager.Service

/-! ## Blockers -/

inductive MachineShutdownBlockerArea where
  | confirmation
  | services
  | activeTasks
  | backups
  | filesystem
  | eventRecording
  deriving DecidableEq, Repr

namespace MachineShutdownBlockerArea

/-- In the order in which decisions list them. -/
def areas : List MachineShutdownBlockerArea :=
  [confirmation, services, activeTasks, backups, filesystem, eventRecording]

def text : MachineShutdownBlockerArea → String
  | confirmation => "confirmation"
  | services => "services"
  | activeTasks => "active_tasks"
  | backups => "backups"
  | filesystem => "filesystem"
  | eventRecording => "event_recording"

end MachineShutdownBlockerArea

inductive MachineShutdownBlockerCode where
  | notDue
  | stale
  | notConfirmed
  | confirmationUnavailable
  | activeTasksPresent
  | backupInProgress
  | backupStateUnknown
  | filesystemSyncRequired
  | filesystemStateUnknown
  | eventRecordingUnavailable
  | serviceReadinessUnavailable
  | readinessDependencyFailed
  | serviceRequiredDuringOfflineInterval
  | serviceRunning
  | serviceFailed
  | serviceStateUnknown
  deriving DecidableEq, Repr

namespace MachineShutdownBlockerCode

def codes : List MachineShutdownBlockerCode :=
  [notDue, stale, notConfirmed, confirmationUnavailable, activeTasksPresent, backupInProgress,
    backupStateUnknown, filesystemSyncRequired, filesystemStateUnknown,
    eventRecordingUnavailable, serviceReadinessUnavailable, readinessDependencyFailed,
    serviceRequiredDuringOfflineInterval, serviceRunning, serviceFailed, serviceStateUnknown]

def text : MachineShutdownBlockerCode → String
  | notDue => "not_due"
  | stale => "stale"
  | notConfirmed => "not_confirmed"
  | confirmationUnavailable => "confirmation_unavailable"
  | activeTasksPresent => "active_tasks_present"
  | backupInProgress => "backup_in_progress"
  | backupStateUnknown => "backup_state_unknown"
  | filesystemSyncRequired => "filesystem_sync_required"
  | filesystemStateUnknown => "filesystem_state_unknown"
  | eventRecordingUnavailable => "event_recording_unavailable"
  | serviceReadinessUnavailable => "service_readiness_unavailable"
  | readinessDependencyFailed => "readiness_dependency_failed"
  | serviceRequiredDuringOfflineInterval => "service_required_during_offline_interval"
  | serviceRunning => "service_running"
  | serviceFailed => "service_failed"
  | serviceStateUnknown => "service_state_unknown"

end MachineShutdownBlockerCode

structure MachineShutdownReadinessBlocker where
  area : MachineShutdownBlockerArea
  code : MachineShutdownBlockerCode
  serviceId : Option String := none
  firstRequiredAt : Option Timestamp := none
  activeTaskCount : Option Int := none
  deriving DecidableEq

inductive MachineShutdownReadinessBlockerValidationErrorCode where
  | invalidRecord
  | invalidField
  | invalidArea
  | invalidCode
  | invalidServiceId
  | invalidTimestamp
  | invalidTaskCount
  deriving DecidableEq, Repr

/-- The service id a value is, if it is one. -/
def serviceIdOf : JsValue → Option String
  | .str id => if isServiceId id then some id else none
  | _ => none

def taskCountOf (value : JsValue) : Option Int :=
  value.integer?.filter fun count => 1 ≤ count ∧ count ≤ 10000

/-- An optional field: absent, or read by `read`, which must succeed. -/
def optionalField {α ε : Type} (fields : List (String × JsValue)) (name : String)
    (read : JsValue → Option α) (invalid : ε) : Except ε (Option α) :=
  if hasOwn fields name then
    match read (field fields name) with
    | some value => .ok (some value)
    | none => .error invalid
  else .ok none

def createMachineShutdownReadinessBlocker (input : JsValue) :
    Except MachineShutdownReadinessBlockerValidationErrorCode
      MachineShutdownReadinessBlocker := do
  let some fields := input.asRecord | throw .invalidRecord
  if hasFieldOutside ["area", "code", "serviceId", "firstRequiredAt", "activeTaskCount"] fields then
    throw .invalidField
  let some area := oneOf MachineShutdownBlockerArea.areas MachineShutdownBlockerArea.text
    (field fields "area") | throw .invalidArea
  let some code := oneOf MachineShutdownBlockerCode.codes MachineShutdownBlockerCode.text
    (field fields "code") | throw .invalidCode
  let serviceId ← optionalField fields "serviceId" serviceIdOf .invalidServiceId
  let firstRequiredAt ← optionalField fields "firstRequiredAt" (·.timestamp?) .invalidTimestamp
  let activeTaskCount ← optionalField fields "activeTaskCount" taskCountOf .invalidTaskCount
  return { area, code, serviceId, firstRequiredAt, activeTaskCount }

/-! ## Decisions -/

/-- The order of `String.prototype.localeCompare`. -/
abbrev LocaleCompare := String → String → Ordering

def compareBlockers (localeCompare : LocaleCompare)
    (left right : MachineShutdownReadinessBlocker) : Ordering :=
  let areaOrder (area : MachineShutdownBlockerArea) := MachineShutdownBlockerArea.areas.idxOf area
  let time (blocker : MachineShutdownReadinessBlocker) :=
    (blocker.firstRequiredAt.map (·.text)).getD ""
  (compare (areaOrder left.area) (areaOrder right.area)).then <|
  (localeCompare (left.serviceId.getD "") (right.serviceId.getD "")).then <|
  (localeCompare left.code.text right.code.text).then <|
  localeCompare (time left) (time right)

def sortMachineShutdownReadinessBlockers (localeCompare : LocaleCompare)
    (blockers : List MachineShutdownReadinessBlocker) : List MachineShutdownReadinessBlocker :=
  blockers.mergeSort fun left right => compareBlockers localeCompare left right ≠ .gt

@[simp] theorem sortMachineShutdownReadinessBlockers_eq_nil {localeCompare : LocaleCompare}
    {blockers : List MachineShutdownReadinessBlocker} :
    sortMachineShutdownReadinessBlockers localeCompare blockers = [] ↔ blockers = [] := by
  rw [← List.length_eq_zero_iff, ← List.length_eq_zero_iff (l := blockers),
    sortMachineShutdownReadinessBlockers, List.length_mergeSort]

inductive MachineShutdownReadinessOutcome where
  | approved
  | rejected
  deriving DecidableEq, Repr

structure MachineShutdownReadinessDecision where
  occurrence : MachineShutdownOccurrence
  evaluatedAt : Timestamp
  outcome : MachineShutdownReadinessOutcome
  blockers : List MachineShutdownReadinessBlocker
  agrees : outcome = .approved ↔ blockers = []
  deriving DecidableEq

inductive MachineShutdownReadinessDecisionValidationErrorCode where
  | invalidBlockers
  deriving DecidableEq, Repr

/-- The decision over fields that have been checked. -/
def createMachineShutdownReadinessDecision (localeCompare : LocaleCompare)
    (occurrence : MachineShutdownOccurrence) (evaluatedAt : Timestamp)
    (outcome : MachineShutdownReadinessOutcome)
    (blockers : List MachineShutdownReadinessBlocker) :
    Except MachineShutdownReadinessDecisionValidationErrorCode MachineShutdownReadinessDecision :=
  let sorted := sortMachineShutdownReadinessBlockers localeCompare blockers
  if h : outcome = .approved ↔ sorted = [] then
    .ok { occurrence, evaluatedAt, outcome, blockers := sorted, agrees := h }
  else .error .invalidBlockers

/-- The outcome over the blockers that were found. -/
def outcomeOf (blockers : List MachineShutdownReadinessBlocker) :
    MachineShutdownReadinessOutcome :=
  if blockers.length = 0 then .approved else .rejected

/-- The decision over the blockers that were found passes its own check. -/
theorem createMachineShutdownReadinessDecision_outcomeOf (localeCompare : LocaleCompare)
    (occurrence : MachineShutdownOccurrence) (evaluatedAt : Timestamp)
    (blockers : List MachineShutdownReadinessBlocker) :
    ∃ decision, createMachineShutdownReadinessDecision localeCompare occurrence evaluatedAt
        (outcomeOf blockers) blockers = .ok decision ∧
      decision.occurrence = occurrence ∧ decision.evaluatedAt = evaluatedAt ∧
      (decision.outcome = .approved ↔ blockers = []) := by
  have hagrees : outcomeOf blockers = .approved ↔
      sortMachineShutdownReadinessBlockers localeCompare blockers = [] := by
    rw [sortMachineShutdownReadinessBlockers_eq_nil, outcomeOf]
    cases blockers <;> simp
  rw [createMachineShutdownReadinessDecision, dif_pos hagrees]
  exact ⟨_, rfl, rfl, rfl, hagrees.trans sortMachineShutdownReadinessBlockers_eq_nil⟩

end AtlasManager.Power
