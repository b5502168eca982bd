import AtlasManager.AccessControl.AdministrativeOperation

/-!
# AtlasManager.EventHistory.AdministrativeEvent

The events of the audit trail, and the check that every event passes before it is
recorded.

* `createDetails` -- the check of the details of an event, operation by operation;
* `createAdministrativeEventInput` -- the check of an event.
-/

namespace AtlasManager.EventHistory

open AtlasManager.Lib AtlasManager.Backup AtlasManager.AccessControl

/-! ## Operations and statuses -/

inductive AdministrativeEventOperation where
  | authorizeAdministrativeOperation
  | scheduleWakeAlarm
  | cancelWakeAlarm
  | requestMachineShutdown
  | prepareMachineShutdownOccurrence
  | executeMachineShutdownOccurrence
  | runMachinePowerSchedulerTick
  | startRegisteredService
  | stopRegisteredService
  | restartRegisteredService
  | updateRegisteredServiceAvailability
  | removeRegisteredServiceAvailability
  | updateRegisteredServiceSchedule
  | removeRegisteredServiceSchedule
  | updateMachineOperatingPolicy
  | removeMachineOperatingPolicy
  | runRegisteredBackup
  | updateBackupSchedule
  | removeBackupSchedule
  | updateBackupRetention
  | runBackupRetentionPrune
  | runBackupSchedulerTick
  | verifyEventHistoryIntegrity
  | rotateAdministrativeEventHistory
  | updateAdministrativeEventHistoryRetention
  | pruneAdministrativeEventHistory
  | createAdministrativeEventHistoryExport
  | pruneAdministrativeEventHistoryExports
  | recoverAdministrativeEventHistoryStaleLock
  | migrateAdministrativeEventHistoryV1
  | readEventHistoryRetention
  | listEventHistoryExports
  | readEventHistoryExport
  | downloadEventHistoryExport
  | readAdministrativeSecurityPosture
  deriving DecidableEq, Repr

namespace AdministrativeEventOperation

def text : AdministrativeEventOperation → String
  | authorizeAdministrativeOperation => "authorize_administrative_operation"
  | scheduleWakeAlarm => "schedule_wake_alarm"
  | cancelWakeAlarm => "cancel_wake_alarm"
  | requestMachineShutdown => "request_machine_shutdown"
  | prepareMachineShutdownOccurrence => "prepare_machine_shutdown_occurrence"
  | executeMachineShutdownOccurrence => "execute_machine_shutdown_occurrence"
  | runMachinePowerSchedulerTick => "run_machine_power_scheduler_tick"
  | startRegisteredService => "start_registered_service"
  | stopRegisteredService => "stop_registered_service"
  | restartRegisteredService => "restart_registered_service"
  | updateRegisteredServiceAvailability => "update_registered_service_availability"
  | removeRegisteredServiceAvailability => "remove_registered_service_availability"
  | updateRegisteredServiceSchedule => "update_registered_service_schedule"
  | removeRegisteredServiceSchedule => "remove_registered_service_schedule"
  | updateMachineOperatingPolicy => "update_machine_operating_policy"
  | removeMachineOperatingPolicy => "remove_machine_operating_policy"
  | runRegisteredBackup => "run_registered_backup"
  | updateBackupSchedule => "update_backup_schedule"
  | removeBackupSchedule => "remove_backup_schedule"
  | updateBackupRetention => "update_backup_retention"
  | runBackupRetentionPrune => "run_backup_retention_prune"
  | runBackupSchedulerTick => "run_backup_scheduler_tick"
  | verifyEventHistoryIntegrity => "verify_event_history_integrity"
  | rotateAdministrativeEventHistory => "rotate_administrative_event_history"
  | updateAdministrativeEventHistoryRetention => "update_administrative_event_history_retention"
  | pruneAdministrativeEventHistory => "prune_administrative_event_history"
  | createAdministrativeEventHistoryExport => "create_administrative_event_history_export"
  | pruneAdministrativeEventHistoryExports => "prune_administrative_event_history_exports"
  | recoverAdministrativeEventHistoryStaleLock => "recover_administrative_event_history_stale_lock"
  | migrateAdministrativeEventHistoryV1 => "migrate_administrative_event_history_v1"
  | readEventHistoryRetention => "read_event_history_retention"
  | listEventHistoryExports => "list_event_history_exports"
  | readEventHistoryExport => "read_event_history_export"
  | downloadEventHistoryExport => "download_event_history_export"
  | readAdministrativeSecurityPosture => "read_administrative_security_posture"

def all : List AdministrativeEventOperation :=
  [.authorizeAdministrativeOperation, .scheduleWakeAlarm, .cancelWakeAlarm,
    .requestMachineShutdown, .prepareMachineShutdownOccurrence, .executeMachineShutdownOccurrence,
    .runMachinePowerSchedulerTick, .startRegisteredService, .stopRegisteredService,
    .restartRegisteredService, .updateRegisteredServiceAvailability,
    .removeRegisteredServiceAvailability, .updateRegisteredServiceSchedule,
    .removeRegisteredServiceSchedule, .updateMachineOperatingPolicy, .removeMachineOperatingPolicy,
    .runRegisteredBackup, .updateBackupSchedule, .removeBackupSchedule, .updateBackupRetention,
    .runBackupRetentionPrune, .runBackupSchedulerTick, .verifyEventHistoryIntegrity,
    .rotateAdministrativeEventHistory, .updateAdministrativeEventHistoryRetention,
    .pruneAdministrativeEventHistory, .createAdministrativeEventHistoryExport,
    .pruneAdministrativeEventHistoryExports, .recoverAdministrativeEventHistoryStaleLock,
    .migrateAdministrativeEventHistoryV1, .readEventHistoryRetention, .listEventHistoryExports,
    .readEventHistoryExport, .downloadEventHistoryExport, .readAdministrativeSecurityPosture]

theorem mem_all (operation : AdministrativeEventOperation) : operation ∈ all := by
  cases operation <;> decide

@[simp] theorem oneOf_text (operation : AdministrativeEventOperation) :
    oneOf all text (.str operation.text) = some operation := by
  have hall : ∀ operation ∈ all, oneOf all text (.str operation.text) = some operation := by
    decide +kernel
  exact hall operation (mem_all operation)

end AdministrativeEventOperation

inductive AdministrativeEventStatus where
  | started
  | succeeded
  | rejected
  | failed
  deriving DecidableEq, Repr

namespace AdministrativeEventStatus

def text : AdministrativeEventStatus → String
  | started => "started"
  | succeeded => "succeeded"
  | rejected => "rejected"
  | failed => "failed"

def all : List AdministrativeEventStatus := [.started, .succeeded, .rejected, .failed]

@[simp] theorem oneOf_text (status : AdministrativeEventStatus) :
    oneOf all text (.str status.text) = some status := by
  cases status <;> rfl

end AdministrativeEventStatus

/-! ## Events -/

inductive AdministrativeEventSourceKind where
  | administrative
  | automated
  | system
  deriving DecidableEq, Repr

def AdministrativeEventSourceKind.text : AdministrativeEventSourceKind → String
  | administrative => "administrative"
  | automated => "automated"
  | system => "system"

structure AdministrativeEventSource where
  kind : AdministrativeEventSourceKind
  actorId : String
  deriving DecidableEq

/-- The fields of a record. -/
abbrev Fields := List (String × JsValue)

structure AdministrativeEventInput where
  attemptId : String
  occurredAt : String
  source : AdministrativeEventSource
  operation : AdministrativeEventOperation
  status : AdministrativeEventStatus
  details : Option Fields
  deriving DecidableEq

inductive AdministrativeEventValidationErrorCode where
  | invalidRecord
  | invalidField
  | invalidSequence
  | invalidAttemptId
  | invalidOccurredAt
  | invalidSource
  | invalidTarget
  | invalidOperation
  | invalidStatus
  | invalidDetails
  | invalidFailureCode
  deriving DecidableEq, Repr

/-- A check that may refuse what it is given. -/
abbrev Check := Except AdministrativeEventValidationErrorCode

theorem ok_bind {α β : Type} (a : α) (f : α → Check β) : (Except.ok a >>= f) = f a := rfl

/-! ## Parts of the check -/

def requireRecord : JsValue → Check Fields
  | .obj fields => .ok fields
  | _ => .error .invalidRecord

def require (condition : Bool) (code : AdministrativeEventValidationErrorCode) : Check Unit :=
  if condition then .ok () else .error code

/-- All fields but `details` are there, and no others. -/
def assertFields (record : Fields) (optional : List String) : Check Unit :=
  require (!hasFieldOutside optional record &&
    (optional.filter (· ≠ "details")).length ≤ record.length) .invalidField

def assertAllowedKeys (record : Fields) (allowed : List String) : Check Unit :=
  require (!hasFieldOutside allowed record) .invalidDetails

def hasExactFields (record : Fields) (fields : List String) : Bool :=
  record.length = fields.length && !hasFieldOutside fields record

/-- `Number.isSafeInteger` of a number from 0 to 100,000. -/
def isBoundedCount (value : JsValue) : Bool :=
  match value.integer? with
  | some count => 0 ≤ count ∧ count ≤ 100000
  | none => false

def safeFailureCodes : List String :=
  ["backup_operation_failed", "administrative_audit_failed",
    "audit_failed_after_event_history_operation", "audit_failed_after_wake_alarm_mutation",
    "audit_failed_after_shutdown_request", "audit_failed_after_shutdown_execution",
    "audit_failed_after_shutdown_preparation", "audit_failed_after_scheduler_tick", "claim_failed",
    "wake_alarm_preparation_failed", "shutdown_failed_after_wake_scheduled",
    "preparation_dependency_failed", "service_stop_failed", "backup_completion_failed",
    "filesystem_synchronization_failed", "event_recording_failed", "unexpected_execution_failure",
    "clock_regression", "interval_too_large", "cursor_conflict", "helper_unavailable",
    "helper_installation_invalid", "helper_timeout", "helper_output_invalid",
    "helper_operation_rejected", "helper_operation_failed", "helper_not_found",
    "helper_not_regular_file", "helper_symbolic_link_rejected", "helper_owner_invalid",
    "helper_not_executable", "helper_parent_invalid", "helper_inspection_failed",
    "helper_start_failed", "helper_io_failed", "helper_exit_failed", "helper_terminated",
    "helper_stdout_too_large", "helper_stderr_too_large", "helper_protocol_invalid",
    "unsupported_platform", "backup_completion_unknown", "filesystem_synchronization_unknown",
    "confirmation_unavailable", "event_recording_unavailable", "readiness_dependency_failed",
    "service_readiness_unavailable", "service_required_during_offline_interval", "service_failed",
    "machine_schedule_operation_failed", "service_state_unknown", "backup_state_unknown",
    "filesystem_state_unknown", "event_history_path_invalid", "event_history_parent_invalid",
    "event_history_file_invalid", "event_history_permissions_unsafe", "event_history_read_failed",
    "event_history_write_failed", "event_history_sync_failed", "event_history_corrupted",
    "event_history_capacity_exceeded", "administrative_event_recording_failed"]

def administrativeEventBlockerCodes : List String :=
  ["not_due", "stale", "not_confirmed", "confirmation_unavailable", "active_tasks_present",
    "backup_in_progress", "backup_state_unknown", "filesystem_sync_required",
    "filesystem_state_unknown", "event_recording_unavailable", "service_readiness_unavailable",
    "readiness_dependency_failed", "service_required_during_offline_interval", "service_running",
    "service_failed", "service_state_unknown"]

def requireTimestampField (record : Fields) (name : String) : Check JsValue :=
  match (field record name).timestamp? with
  | some timestamp => .ok (.str timestamp.text)
  | none => .error .invalidDetails

/-- The value of a field that has to be one of these texts. -/
def requireOneOf (record : Fields) (name : String) (allowed : List String) : Check JsValue :=
  match field record name with
  | .str text => if text ∈ allowed then .ok (.str text) else .error .invalidDetails
  | _ => .error .invalidDetails

/-- A check of a field, if the record has it. -/
def optional (record : Fields) (name : String) (check : Fields → String → Check JsValue) :
    Check (Option JsValue) :=
  if hasOwn record name then (check record name).map some else .ok none

def requireFailureCode (record : Fields) (name : String) : Check JsValue :=
  match field record name with
  | .str text => if text ∈ safeFailureCodes then .ok (.str text) else .error .invalidFailureCode
  | _ => .error .invalidFailureCode

def failureDetails (record : Fields) : Check Fields := do
  assertAllowedKeys record ["failureCode"]
  let failureCode ← requireFailureCode record "failureCode"
  return [("failureCode", failureCode)]

def preparationOutcomes : List String := ["not_required", "blocked", "prepared", "incomplete"]

def executionOutcomes : List String :=
  ["not_due", "stale", "rejected", "preparation_incomplete", "duplicate", "executed"]

def schedulerOutcomes : List String :=
  ["initialized", "idle", "blocked", "incomplete", "advanced", "conflict"]

def optionalPreparationOutcome (record : Fields) : Check (Option JsValue) :=
  optional record "preparationOutcome" fun record name => requireOneOf record name preparationOutcomes

def optionalFailureCode (record : Fields) : Check (Option JsValue) :=
  optional record "failureCode" requireFailureCode

/-- The number of steps, or else of occurrences. -/
def optionalCount (record : Fields) : Check (Option JsValue) :=
  let name := if hasOwn record "completedStepCount" then "completedStepCount" else "occurrenceCount"
  optional record name fun record name =>
    if isBoundedCount (field record name) then .ok (field record name) else .error .invalidDetails

def optionalBoolean (record : Fields) (name : String) : Check (Option JsValue) :=
  optional record name fun record name =>
    match field record name with
    | .bool value => .ok (.bool value)
    | _ => .error .invalidDetails

def optionalAccepted (record : Fields) : Check (Option JsValue) :=
  optional record "shutdownAccepted" fun record name =>
    if field record name = .bool true then .ok (.bool true) else .error .invalidDetails

def optionalBlockerCodes (record : Fields) : Check (Option JsValue) :=
  optional record "blockerCodes" fun record name =>
    match field record name with
    | .arr values =>
      if values.all fun value => administrativeEventBlockerCodes.any fun code => value = .str code then
        .ok (.arr values)
      else .error .invalidDetails
    | _ => .error .invalidDetails

/-- `freezeDefined`: the fields that have a value. -/
def freezeDefined (fields : List (String × Option JsValue)) : Fields :=
  fields.filterMap fun (name, value) => value.map (name, ·)

/-! ## Details -/

/-- The words of letters and digits between dashes, at most 64 characters long. -/
def isRegisteredId (text : String) : Bool := isTargetId text && text.length ≤ 64

section Details

variable (status : AdministrativeEventStatus) (record : Fields)

def authorizationReasonCodes : List String :=
  ["credentials_absent", "credentials_invalid", "identity_provider_unavailable",
    "principal_unknown", "permission_denied", "role_assignment_unavailable",
    "authorization_policy_unavailable"]

def authorizationDetails : Check Fields := do
  require (status = .succeeded || status = .rejected) .invalidDetails
  assertAllowedKeys record ["requestedOperation", "permission", "decision", "reasonCode"]
  let permission := field record "permission"
  let decision := field record "decision"
  match oneOf AdministrativeOperation.all AdministrativeOperation.text
      (field record "requestedOperation") with
  | none => .error .invalidDetails
  | some requestedOperation =>
    require (permission = .str requestedOperation.permission.text &&
      (decision = .str "allowed" || decision = .str "denied") &&
      (status ≠ .succeeded || decision = .str "allowed") &&
      (status ≠ .rejected || decision = .str "denied")) .invalidDetails
    let common := [("requestedOperation", .str requestedOperation.text),
      ("permission", permission), ("decision", decision)]
    if decision = .str "allowed" then
      require (!hasOwn record "reasonCode") .invalidDetails
      return common
    else
      let reasonCode ← requireOneOf record "reasonCode" authorizationReasonCodes
      return common ++ [("reasonCode", reasonCode)]

/-- The details of an operation on a target or a service, whose id is in the field `name`. -/
def registeredDetails (name : String) (failureCodes : List String) : Check Fields :=
  match field record name with
  | .str id =>
    if !isRegisteredId id then .error .invalidDetails
    else
      match status with
      | .started => do
        require (hasExactFields record [name]) .invalidDetails
        return [(name, .str id)]
      | .succeeded => do
        require (hasExactFields record [name, "outcome"] &&
          field record "outcome" = .str "succeeded") .invalidDetails
        return [(name, .str id), ("outcome", .str "succeeded")]
      | .failed => do
        require (hasExactFields record [name, "failureCode"]) .invalidDetails
        let failureCode ← requireOneOf record "failureCode" failureCodes
        return [(name, .str id), ("failureCode", failureCode)]
      | .rejected => .error .invalidDetails
  | _ => .error .invalidDetails

/-- The details of an operation on a backup target. -/
def backupDetails : Check Fields := registeredDetails status record "targetId" safeFailureCodes

/-- The details of an operation on a registered service. -/
def serviceDetails : Check Fields := registeredDetails status record "serviceId" ["service_failed"]

/-- The details of the scheduler tick of the backups, and of a change of the schedule of the
machine. -/
def outcomeDetails : Check Fields :=
  match status with
  | .started => do
    require (hasExactFields record []) .invalidDetails
    return []
  | .succeeded =>
    match field record "outcome" with
    | .str outcome => do
      require (hasExactFields record ["outcome"]) .invalidDetails
      return [("outcome", .str outcome)]
    | _ => .error .invalidDetails
  | .failed => do
    require (hasExactFields record ["failureCode"]) .invalidDetails
    let failureCode ← requireOneOf record "failureCode" safeFailureCodes
    return [("failureCode", failureCode)]
  | .rejected => .error .invalidDetails

/-- The fields of a record with these names, which must be counts. -/
def boundedCounts (names : List String) : Check Fields := do
  require (names.all fun name => !hasOwn record name || isBoundedCount (field record name))
    .invalidDetails
  return names.filterMap fun name =>
    if hasOwn record name then some (name, field record name) else none

def createEventHistoryOperationalDetails : Check Fields :=
  match status with
  | .started => do
    assertAllowedKeys record ["fromSequence", "throughSequence"]
    boundedCounts record ["fromSequence", "throughSequence"]
  | .failed | .rejected => failureDetails record
  | .succeeded => do
    assertAllowedKeys record ["outcome", "firstSequence", "lastSequence", "processedSegmentCount",
      "processedExportCount", "exportId"]
    require (!hasOwn record "outcome" || field record "outcome" matches .str _) .invalidDetails
    let _ ← boundedCounts record ["firstSequence", "lastSequence", "processedSegmentCount",
      "processedExportCount"]
    require (!hasOwn record "exportId" ||
      match field record "exportId" with
      | .str exportId => isSha256 exportId
      | _ => false) .invalidDetails
    return record

def scheduleWakeAlarmDetails : Check Fields :=
  match status with
  | .started => do
    assertAllowedKeys record ["scheduledFor"]
    let scheduledFor ← requireTimestampField record "scheduledFor"
    return [("scheduledFor", scheduledFor)]
  | .succeeded => do
    let scheduledFor ← requireTimestampField record "scheduledFor"
    let mutationOutcome ← requireOneOf record "mutationOutcome" ["scheduled", "replaced", "unchanged"]
    return [("scheduledFor", scheduledFor), ("mutationOutcome", mutationOutcome)]
  | _ => failureDetails record

def cancelWakeAlarmDetails : Check Fields :=
  match status with
  | .started => do
    assertAllowedKeys record []
    return []
  | .succeeded => do
    let mutationOutcome ← requireOneOf record "mutationOutcome" ["cancelled", "not_scheduled"]
    return [("mutationOutcome", mutationOutcome)]
  | _ => failureDetails record

def requestMachineShutdownDetails : Check Fields :=
  match status with
  | .started => do
    assertAllowedKeys record []
    return []
  | .succeeded => do
    require (hasExactFields record ["accepted"] && field record "accepted" = .bool true)
      .invalidDetails
    return [("accepted", .bool true)]
  | _ => failureDetails record

/-- The two instants of a shutdown occurrence. -/
def occurrenceDetails : Check Fields := do
  assertAllowedKeys record ["scheduledFor", "wakeScheduledFor"]
  let scheduledFor ← requireTimestampField record "scheduledFor"
  let wakeScheduledFor ← requireTimestampField record "wakeScheduledFor"
  return [("scheduledFor", scheduledFor), ("wakeScheduledFor", wakeScheduledFor)]

def prepareMachineShutdownDetails : Check Fields :=
  if status = .started then occurrenceDetails record
  else do
    assertAllowedKeys record ["preparationOutcome", "blockerCodes", "completedStepCount", "failureCode"]
    let preparationOutcome ← optionalPreparationOutcome record
    let blockerCodes ← optionalBlockerCodes record
    let completedStepCount ← optionalCount record
    let failureCode ← optionalFailureCode record
    if status = .failed then failureDetails record
    else
      let outcomes := if status = .succeeded then ["not_required", "prepared"] else ["blocked", "incomplete"]
      require (outcomes.any fun outcome => preparationOutcome = some (.str outcome)) .invalidDetails
      require (failureCode = none) .invalidDetails
      return freezeDefined [("preparationOutcome", preparationOutcome), ("blockerCodes", blockerCodes),
        ("completedStepCount", completedStepCount), ("failureCode", failureCode)]

/-- Is an array of blockers there, and not empty? -/
def hasBlockers : Option JsValue → Bool
  | some (.arr blockers) => blockers ≠ []
  | _ => false

def executeMachineShutdownDetails : Check Fields :=
  if status = .started then occurrenceDetails record
  else do
    assertAllowedKeys record ["executionOutcome", "preparationOutcome", "wakeMutationOutcome",
      "shutdownAccepted", "failureCode", "blockerCodes"]
    if status = .failed then failureDetails record
    else
      let executionOutcome ← requireOneOf record "executionOutcome" executionOutcomes
      let preparationOutcome ← optionalPreparationOutcome record
      let wakeMutationOutcome ← optional record "wakeMutationOutcome" fun record name =>
        requireOneOf record name ["scheduled", "replaced", "unchanged"]
      let shutdownAccepted ← optionalAccepted record
      let failureCode ← optionalFailureCode record
      let blockerCodes ← optionalBlockerCodes record
      if status = .succeeded then
        require (executionOutcome = .str "executed" &&
          (preparationOutcome = none || preparationOutcome = some (.str "not_required") ||
            preparationOutcome = some (.str "prepared")) &&
          wakeMutationOutcome.isSome && shutdownAccepted.isSome && failureCode = none) .invalidDetails
      else
        require (failureCode = none && shutdownAccepted = none) .invalidDetails
        require (executionOutcome ≠ .str "preparation_incomplete" ||
          preparationOutcome = some (.str "incomplete") && wakeMutationOutcome = none &&
            blockerCodes = none) .invalidDetails
        require (executionOutcome ≠ .str "rejected" ||
          hasBlockers blockerCodes && preparationOutcome = none && wakeMutationOutcome = none)
          .invalidDetails
        require (executionOutcome = .str "preparation_incomplete" || executionOutcome = .str "rejected" ||
          preparationOutcome = none && wakeMutationOutcome = none && blockerCodes = none) .invalidDetails
      return freezeDefined [("executionOutcome", some executionOutcome),
        ("preparationOutcome", preparationOutcome), ("wakeMutationOutcome", wakeMutationOutcome),
        ("shutdownAccepted", shutdownAccepted), ("failureCode", failureCode),
        ("blockerCodes", blockerCodes)]

def machinePowerSchedulerDetails : Check Fields :=
  if status = .started then do
    assertAllowedKeys record ["tickedThrough"]
    let tickedThrough ← requireTimestampField record "tickedThrough"
    return [("tickedThrough", tickedThrough)]
  else do
    assertAllowedKeys record ["schedulerOutcome", "completedThrough", "tickedThrough",
      "occurrenceCount", "complete", "failureCode"]
    if status = .failed then failureDetails record
    else
      let schedulerOutcome ← requireOneOf record "schedulerOutcome" schedulerOutcomes
      let completedThrough ← optional record "completedThrough" requireTimestampField
      let tickedThrough ← optional record "tickedThrough" requireTimestampField
      let occurrenceCount ← optionalCount record
      let complete ← optionalBoolean record "complete"
      let failureCode ← optionalFailureCode record
      let outcomes := if status = .succeeded then ["initialized", "idle", "advanced"]
        else ["blocked", "incomplete", "conflict"]
      require (outcomes.any fun outcome => schedulerOutcome = .str outcome) .invalidDetails
      require (failureCode = none) .invalidDetails
      return freezeDefined [("schedulerOutcome", some schedulerOutcome),
        ("completedThrough", completedThrough), ("tickedThrough", tickedThrough),
        ("occurrenceCount", occurrenceCount), ("complete", complete), ("failureCode", failureCode)]

end Details

/-- `createDetails` of details that are there. -/
def createDetails (operation : AdministrativeEventOperation) (status : AdministrativeEventStatus)
    (input : JsValue) : Check (Option Fields) :=
  match input with
  | .undefined =>
    if (operation = .cancelWakeAlarm || operation = .requestMachineShutdown) && status = .started then
      .ok none
    else .error .invalidDetails
  | input => do
    let record ← requireRecord input
    match operation with
    | .authorizeAdministrativeOperation => some <$> authorizationDetails status record
    | .runRegisteredBackup | .updateBackupSchedule | .removeBackupSchedule | .updateBackupRetention
    | .runBackupRetentionPrune => some <$> backupDetails status record
    | .runBackupSchedulerTick | .updateMachineOperatingPolicy | .removeMachineOperatingPolicy =>
      some <$> outcomeDetails status record
    | .verifyEventHistoryIntegrity | .rotateAdministrativeEventHistory
    | .updateAdministrativeEventHistoryRetention | .pruneAdministrativeEventHistory
    | .createAdministrativeEventHistoryExport | .pruneAdministrativeEventHistoryExports
    | .recoverAdministrativeEventHistoryStaleLock | .migrateAdministrativeEventHistoryV1
    | .readEventHistoryRetention | .listEventHistoryExports | .readEventHistoryExport
    | .downloadEventHistoryExport => some <$> createEventHistoryOperationalDetails status record
    | .startRegisteredService | .stopRegisteredService | .restartRegisteredService
    | .updateRegisteredServiceAvailability | .removeRegisteredServiceAvailability
    | .updateRegisteredServiceSchedule | .removeRegisteredServiceSchedule =>
      some <$> serviceDetails status record
    | .scheduleWakeAlarm => some <$> scheduleWakeAlarmDetails status record
    | .cancelWakeAlarm => some <$> cancelWakeAlarmDetails status record
    | .requestMachineShutdown => some <$> requestMachineShutdownDetails status record
    | .prepareMachineShutdownOccurrence => some <$> prepareMachineShutdownDetails status record
    | .executeMachineShutdownOccurrence => some <$> executeMachineShutdownDetails status record
    | .runMachinePowerSchedulerTick | .readAdministrativeSecurityPosture =>
      some <$> machinePowerSchedulerDetails status record

/-! ## The check of an event -/

/-- Does an actor id name a canonical principal after these characters? -/
def attributedTo (start actorId : String) : Bool :=
  start.toList.isPrefixOf actorId.toList && isRunId (String.ofList (actorId.toList.drop start.length))

def createSource (input : JsValue) : Check AdministrativeEventSource := do
  let record ← requireRecord input
  assertFields record ["kind", "actorId"]
  match field record "kind", field record "actorId" with
  | .str "administrative", .str actorId => do
    require (actorId = "unattributed-local" || actorId = "unauthenticated" ||
      attributedTo "administrator:" actorId || attributedTo "service:" actorId) .invalidSource
    return ⟨.administrative, actorId⟩
  | .str "automated", .str "machine-power-scheduler" => return ⟨.automated, "machine-power-scheduler"⟩
  | .str "system", .str "atlas-manager" => return ⟨.system, "atlas-manager"⟩
  | _, _ => .error .invalidSource

def createTarget (input : JsValue) : Check Unit := do
  let record ← requireRecord input
  assertFields record ["kind", "id"]
  require (field record "kind" = .str "machine" && field record "id" = .str "atlas") .invalidTarget

def createAdministrativeEventInput (input : JsValue) : Check AdministrativeEventInput := do
  let record ← requireRecord input
  assertFields record ["attemptId", "occurredAt", "source", "target", "operation", "status", "details"]
  let source ← createSource (field record "source")
  createTarget (field record "target")
  match oneOf AdministrativeEventOperation.all AdministrativeEventOperation.text (field record "operation") with
  | none => .error .invalidOperation
  | some operation =>
    match oneOf AdministrativeEventStatus.all AdministrativeEventStatus.text (field record "status") with
    | none => .error .invalidStatus
    | some status =>
      match field record "attemptId" with
      | .str attemptId =>
        if !isRunId attemptId then .error .invalidAttemptId
        else
          match (field record "occurredAt").timestamp? with
          | none => .error .invalidOccurredAt
          | some occurredAt =>
            let details ← if hasOwn record "details" then
                createDetails operation status (field record "details")
              else pure none
            return ⟨attemptId, occurredAt.text, source, operation, status, details⟩
      | _ => .error .invalidAttemptId

end AtlasManager.EventHistory
