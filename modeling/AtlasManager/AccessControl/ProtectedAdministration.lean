import AtlasManager.EventHistory.AdministrativeEvent
import AtlasManager.Lib.Prog

/-!
# AtlasManager.AccessControl.ProtectedAdministration

The operations of an administrator, under access control and the audit trail, as
programs over their ports.

* `authorize` -- whether the roles of a principal allow an operation;
* `begin`, `complete` -- the two halves of an attempt in the audit trail;
* `run` -- an operation that has to be allowed;
* `ProtectedMutation.execute` -- the operations that change something.
-/

namespace AtlasManager.AccessControl

open AtlasManager.Lib AtlasManager.EventHistory

/-! ## Errors -/

inductive AdministrativeAccessControlErrorCode where
  | administrativeAuthenticationRequired
  | administrativeIdentityUnavailable
  | administrativeAuthorizationDenied
  | administrativeAuthorizationUnavailable
  | authorizationAuditUnavailable
  | protectedOperationFailed
  deriving DecidableEq, Repr

inductive PartialEffectCode where
  | auditFailedAfterWakeAlarmMutation
  | auditFailedAfterShutdownRequest
  | auditFailedAfterShutdownExecution
  | auditFailedAfterShutdownPreparation
  | auditFailedAfterSchedulerTick
  | auditFailedAfterServiceOperation
  | auditFailedAfterMachineScheduleOperation
  | auditFailedAfterBackupOperation
  | auditFailedAfterEventHistoryOperation
  deriving DecidableEq, Repr

/-- What may be thrown, where operations have results of the type `ρ`. -/
inductive Thrown (ρ : Type) where
  | accessControl (code : AdministrativeAccessControlErrorCode)
    (operation : Option AdministrativeOperation)
  | auditTrail
  | partialEffect (code : PartialEffectCode) (result : Option ρ)
  | eventValidation (code : AdministrativeEventValidationErrorCode)
  | error (className message : String)
  deriving DecidableEq

/-! ## Ports -/

inductive AuthenticationFailureReason where
  | credentialsAbsent
  | credentialsInvalid
  | signatureInvalid
  | issuerMismatch
  | audienceMismatch
  | claimsInvalid
  | keyUnavailable
  deriving DecidableEq, Repr

inductive AdministrativeAuthenticationResult where
  | authenticated (principal : AdministrativePrincipal)
  | unauthenticated (reason : AuthenticationFailureReason)
  | unavailable

inductive AdministrativeRoleAssignmentResult where
  | assigned (roles : List AdministrativeRole)
  | unknownPrincipal
  | unavailable

inductive AdministrationCall where
  | now
  | authenticate
  | readRoles (principal : AdministrativePrincipal)
  | generateAttemptId
  | record (event : AdministrativeEventInput)
  | invoke

abbrev AdministrationCall.Answer (ρ : Type) : AdministrationCall → Type
  | now => Timestamp
  | authenticate => AdministrativeAuthenticationResult
  | readRoles _ => AdministrativeRoleAssignmentResult
  | generateAttemptId => String
  | record _ => Unit
  | invoke => ρ

abbrev AdministrationProg (ρ : Type) :=
  Prog AdministrationCall (AdministrationCall.Answer ρ) (Thrown ρ)

abbrev AdministrationLog (ρ : Type) :=
  Prog.Log AdministrationCall (AdministrationCall.Answer ρ) (Thrown ρ)

section Programs

variable {ρ : Type}

def ask (call : AdministrationCall) : AdministrationProg ρ (call.Answer ρ) := Prog.perform call

/-- Go on when a check does not refuse. -/
def checked {α : Type} : Check α → AdministrationProg ρ α
  | .ok value => pure value
  | .error code => .throw (.eventValidation code)

/-! ## Authorization -/

inductive AdministrativeAuthorizationDenyReason where
  | principalUnknown
  | permissionDenied
  | roleAssignmentUnavailable
  | authorizationPolicyUnavailable
  deriving DecidableEq, Repr

def AdministrativeAuthorizationDenyReason.text : AdministrativeAuthorizationDenyReason → String
  | principalUnknown => "principal_unknown"
  | permissionDenied => "permission_denied"
  | roleAssignmentUnavailable => "role_assignment_unavailable"
  | authorizationPolicyUnavailable => "authorization_policy_unavailable"

/-- A decision; one without a reason is that the operation is allowed. -/
structure AdministrativeAuthorizationDecision where
  principal : AdministrativePrincipal
  operation : AdministrativeOperation
  evaluatedAt : Timestamp
  reason : Option AdministrativeAuthorizationDenyReason

/-- `AuthorizeAdministrativeOperation.execute`. -/
def authorize (principal : AdministrativePrincipal) (operation : AdministrativeOperation)
    (evaluatedAt : Timestamp) : AdministrationProg ρ AdministrativeAuthorizationDecision := do
  let denied reason := { principal, operation, evaluatedAt, reason := some reason }
  match ← (ask (.readRoles principal)).attempt with
  | .error _ | .ok .unavailable => return denied .roleAssignmentUnavailable
  | .ok .unknownPrincipal => return denied .principalUnknown
  | .ok (.assigned roles) =>
    if roles.any (roleHasAdministrativePermission · operation.permission) then
      return { principal, operation, evaluatedAt, reason := none }
    else return denied .permissionDenied

/-! ## Recording -/

def AdministrativeEventSource.toJs (source : AdministrativeEventSource) : JsValue :=
  .obj [("kind", .str source.kind.text), ("actorId", .str source.actorId)]

/-- The event that is given to the check. -/
def eventRecord (attemptId : String) (occurredAt : Timestamp) (source : AdministrativeEventSource)
    (operation : AdministrativeEventOperation) (status : AdministrativeEventStatus)
    (details : JsValue) : JsValue :=
  .obj [("attemptId", .str attemptId), ("occurredAt", .str occurredAt.text),
    ("source", AdministrativeEventSource.toJs source),
    ("target", .obj [("kind", .str "machine"), ("id", .str "atlas")]),
    ("operation", .str operation.text), ("status", .str status.text), ("details", details)]

/-- The event of a decision about an operation. -/
def recordAuthorization (operation : AdministrativeOperation) (reasonCode : Option String)
    (occurredAt : Timestamp) (source : AdministrativeEventSource) : AdministrationProg ρ Unit := do
  let attemptId ← ask .generateAttemptId
  let decision := if reasonCode.isNone then "allowed" else "denied"
  let details := [("requestedOperation", .str operation.text),
    ("permission", .str operation.permission.text), ("decision", .str decision)] ++
      reasonCode.toList.map fun code => ("reasonCode", .str code)
  let recording := do
    let event ← checked (createAdministrativeEventInput (eventRecord attemptId occurredAt source
      .authorizeAdministrativeOperation (if reasonCode.isNone then .succeeded else .rejected)
      (.obj details)))
    ask (.record event)
  match ← recording.attempt with
  | .ok _ => return ()
  | .error _ => .throw (.accessControl .authorizationAuditUnavailable none)

structure AdministrativeAuditAttempt where
  attemptId : String
  operation : AdministrativeEventOperation
  occurredAt : Timestamp
  source : AdministrativeEventSource

/-- `AdministrativeAuditTrail.begin`. -/
def begin (operation : AdministrativeEventOperation) (details : JsValue) (occurredAt : Timestamp)
    (source : AdministrativeEventSource) : AdministrationProg ρ AdministrativeAuditAttempt := do
  let attemptId ← ask .generateAttemptId
  let started ← checked
    (createAdministrativeEventInput (eventRecord attemptId occurredAt source operation .started details))
  match ← (ask (.record started)).attempt with
  | .ok _ => return { attemptId, operation, occurredAt, source }
  | .error _ => .throw .auditTrail

/-- `AdministrativeAuditTrail.complete`. -/
def complete (attempt : AdministrativeAuditAttempt) (status : AdministrativeEventStatus)
    (details : JsValue) : AdministrationProg ρ Unit := do
  let event ← checked (createAdministrativeEventInput
    (eventRecord attempt.attemptId attempt.occurredAt attempt.source attempt.operation status details))
  match ← (ask (.record event)).attempt with
  | .ok _ => return ()
  | .error _ => .throw .auditTrail

/-! ## Protected operations -/

def auditReasonForAuthenticationFailure : AuthenticationFailureReason → String
  | .credentialsAbsent => "credentials_absent"
  | .keyUnavailable => "identity_provider_unavailable"
  | _ => "credentials_invalid"

def sourceForPrincipal (principal : AdministrativePrincipal) : AdministrativeEventSource where
  kind := .administrative
  actorId := administrativePrincipalActorId principal

/-- The messages of errors that `run` passes on. -/
def passedMessages : List String :=
  ["registered_service_not_found", "registered_backup_target_not_found", "backup_run_not_found",
    "backup_target_disabled", "backup_target_not_scheduled", "backup_operation_busy"]

/-- The classes of errors that `run` passes on. -/
def passedClasses : List String :=
  ["RegisteredServiceNotFoundError", "WakeAlarmScheduleValidationError",
    "ServiceAvailabilityPolicyValidationError", "ServiceAvailabilityModeValidationError",
    "ServiceScheduleValidationError", "ServiceScheduleTimezoneValidationError",
    "BackupTargetValidationError", "MachineOperatingPolicyValidationError",
    "MachineWeeklyOperatingScheduleValidationError", "MachineShutdownOccurrenceExecutionError"]

/-- What `run` throws when the operation has thrown. -/
def rethrown (operation : AdministrativeOperation) : Thrown ρ → Thrown ρ
  | .partialEffect code result => .partialEffect code result
  | .auditTrail => .auditTrail
  | .error className message =>
    if message ∈ passedMessages ∨ className ∈ passedClasses then .error className message
    else .accessControl .protectedOperationFailed (some operation)
  | _ => .accessControl .protectedOperationFailed (some operation)

/-- The event of a caller who is not known, and the error for the caller. -/
def refuseAuthentication {α : Type} (operation : AdministrativeOperation) (evaluatedAt : Timestamp)
    (reasonCode : String) (code : AdministrativeAccessControlErrorCode) : AdministrationProg ρ α := do
  match ← (recordAuthorization operation (some reasonCode) evaluatedAt
      ⟨.administrative, "unauthenticated"⟩).attempt with
  | .ok _ => .throw (.accessControl code none)
  | .error _ => .throw (.accessControl .authorizationAuditUnavailable none)

/-- The operation, once the caller is known. -/
def runAs {α : Type} (operation : AdministrativeOperation) (principal : AdministrativePrincipal)
    (evaluatedAt : Timestamp)
    (invoke : Timestamp → AdministrativeEventSource → AdministrationProg ρ α) : AdministrationProg ρ α := do
  match ← (authorize principal operation evaluatedAt).attempt with
  | .error _ => .throw (.accessControl .administrativeAuthorizationUnavailable none)
  | .ok decision =>
    let source := sourceForPrincipal principal
    match ← (recordAuthorization decision.operation
        (decision.reason.map AdministrativeAuthorizationDenyReason.text) decision.evaluatedAt
        source).attempt with
    | .error _ => .throw (.accessControl .authorizationAuditUnavailable none)
    | .ok _ =>
      match decision.reason with
      | some .roleAssignmentUnavailable | some .authorizationPolicyUnavailable =>
        .throw (.accessControl .administrativeAuthorizationUnavailable none)
      | some _ => .throw (.accessControl .administrativeAuthorizationDenied none)
      | none =>
        match ← (invoke evaluatedAt source).attempt with
        | .ok result => return result
        | .error error => .throw (rethrown operation error)

/-- `ExecuteProtectedAdministrativeOperation.run`, without a check of the input. -/
def run {α : Type} (operation : AdministrativeOperation)
    (invoke : Timestamp → AdministrativeEventSource → AdministrationProg ρ α) : AdministrationProg ρ α := do
  let evaluatedAt ← ask .now
  match ← (ask .authenticate).attempt with
  | .error _ | .ok .unavailable =>
    refuseAuthentication operation evaluatedAt "identity_provider_unavailable"
      .administrativeIdentityUnavailable
  | .ok (.unauthenticated reason) =>
    refuseAuthentication operation evaluatedAt (auditReasonForAuthenticationFailure reason)
      .administrativeAuthenticationRequired
  | .ok (.authenticated principal) => runAs operation principal evaluatedAt invoke

/-! ## Mutations -/

/-- The end of an attempt whose operation has thrown. -/
def auditFailure (attempt : AdministrativeAuditAttempt) (details : JsValue) (error : Thrown ρ) :
    AdministrationProg ρ ρ := do
  match ← (complete attempt .failed details).attempt with
  | .ok _ => .throw error
  | .error _ => .throw .auditTrail

/-- The operation and the event of its success. -/
def invokeAudited (attempt : AdministrativeAuditAttempt) (details : JsValue) (code : PartialEffectCode) :
    AdministrationProg ρ ρ := do
  let result ← ask .invoke
  match ← (complete attempt .succeeded details).attempt with
  | .ok _ => return result
  | .error _ => .throw (.partialEffect code (some result))

/-- An operation whose attempt is recorded before and after it. -/
def runMutation (operation : AdministrativeOperation) (event : AdministrativeEventOperation)
    (started succeeded failed : JsValue) (code : PartialEffectCode) : AdministrationProg ρ ρ :=
  run operation fun occurredAt source => do
    let attempt ← begin event started occurredAt source
    match ← (invokeAudited attempt succeeded code).attempt with
    | .ok result => return result
    | .error (.partialEffect code result) => .throw (.partialEffect code result)
    | .error error => auditFailure attempt failed error

inductive ServiceMutation where
  | startRegisteredService
  | stopRegisteredService
  | restartRegisteredService
  | updateRegisteredServiceAvailability
  | removeRegisteredServiceAvailability
  | updateRegisteredServiceSchedule
  | removeRegisteredServiceSchedule
  deriving DecidableEq, Repr

def ServiceMutation.operation : ServiceMutation → AdministrativeOperation
  | startRegisteredService => .startRegisteredService
  | stopRegisteredService => .stopRegisteredService
  | restartRegisteredService => .restartRegisteredService
  | updateRegisteredServiceAvailability => .updateRegisteredServiceAvailability
  | removeRegisteredServiceAvailability => .removeRegisteredServiceAvailability
  | updateRegisteredServiceSchedule => .updateRegisteredServiceSchedule
  | removeRegisteredServiceSchedule => .removeRegisteredServiceSchedule

def ServiceMutation.event : ServiceMutation → AdministrativeEventOperation
  | startRegisteredService => .startRegisteredService
  | stopRegisteredService => .stopRegisteredService
  | restartRegisteredService => .restartRegisteredService
  | updateRegisteredServiceAvailability => .updateRegisteredServiceAvailability
  | removeRegisteredServiceAvailability => .removeRegisteredServiceAvailability
  | updateRegisteredServiceSchedule => .updateRegisteredServiceSchedule
  | removeRegisteredServiceSchedule => .removeRegisteredServiceSchedule

def runServiceMutation (mutation : ServiceMutation) (serviceId : String) : AdministrationProg ρ ρ :=
  runMutation mutation.operation mutation.event
    (.obj [("serviceId", .str serviceId)])
    (.obj [("serviceId", .str serviceId), ("outcome", .str "succeeded")])
    (.obj [("serviceId", .str serviceId), ("failureCode", .str "service_failed")])
    .auditFailedAfterServiceOperation

inductive MachineScheduleMutation where
  | updateMachineOperatingPolicy
  | removeMachineOperatingPolicy
  deriving DecidableEq, Repr

def MachineScheduleMutation.operation : MachineScheduleMutation → AdministrativeOperation
  | updateMachineOperatingPolicy => .updateMachineOperatingPolicy
  | removeMachineOperatingPolicy => .removeMachineOperatingPolicy

def MachineScheduleMutation.event : MachineScheduleMutation → AdministrativeEventOperation
  | updateMachineOperatingPolicy => .updateMachineOperatingPolicy
  | removeMachineOperatingPolicy => .removeMachineOperatingPolicy

def runMachineScheduleMutation (mutation : MachineScheduleMutation) : AdministrationProg ρ ρ :=
  runMutation mutation.operation mutation.event
    (.obj [])
    (.obj [("outcome", .str "succeeded")])
    (.obj [("failureCode", .str "machine_schedule_operation_failed")])
    .auditFailedAfterMachineScheduleOperation

inductive BackupMutation where
  | runRegisteredBackup
  | updateBackupSchedule
  | removeBackupSchedule
  | updateBackupRetention
  | runBackupRetentionPrune
  deriving DecidableEq, Repr

def BackupMutation.operation : BackupMutation → AdministrativeOperation
  | runRegisteredBackup => .runRegisteredBackup
  | updateBackupSchedule => .updateBackupSchedule
  | removeBackupSchedule => .removeBackupSchedule
  | updateBackupRetention => .updateBackupRetention
  | runBackupRetentionPrune => .runBackupRetentionPrune

def BackupMutation.event : BackupMutation → AdministrativeEventOperation
  | runRegisteredBackup => .runRegisteredBackup
  | updateBackupSchedule => .updateBackupSchedule
  | removeBackupSchedule => .removeBackupSchedule
  | updateBackupRetention => .updateBackupRetention
  | runBackupRetentionPrune => .runBackupRetentionPrune

def runBackupMutation (mutation : BackupMutation) (targetId : String) : AdministrationProg ρ ρ :=
  runMutation mutation.operation mutation.event
    (.obj [("targetId", .str targetId)])
    (.obj [("targetId", .str targetId), ("outcome", .str "succeeded")])
    (.obj [("targetId", .str targetId), ("failureCode", .str "backup_operation_failed")])
    .auditFailedAfterBackupOperation

/-- The tick has no error of its own for a result whose event is not recorded: that goes the
way of an operation that has thrown. -/
def runBackupSchedulerTick : AdministrationProg ρ ρ :=
  run .runBackupSchedulerTick fun occurredAt source => do
    let attempt ← begin .runBackupSchedulerTick (.obj []) occurredAt source
    let tick := do
      let result ← ask .invoke
      complete attempt .succeeded (.obj [("outcome", .str "succeeded")])
      return result
    match ← tick.attempt with
    | .ok result => return result
    | .error error =>
      auditFailure attempt (.obj [("failureCode", .str "backup_operation_failed")]) error

inductive EventHistoryMutation where
  | rotateAdministrativeEventHistory
  | updateAdministrativeEventHistoryRetention
  | pruneAdministrativeEventHistory
  | createAdministrativeEventHistoryExport
  | pruneAdministrativeEventHistoryExports
  deriving DecidableEq, Repr

def EventHistoryMutation.operation : EventHistoryMutation → AdministrativeOperation
  | rotateAdministrativeEventHistory => .rotateEventHistory
  | updateAdministrativeEventHistoryRetention => .updateEventHistoryRetention
  | pruneAdministrativeEventHistory => .pruneEventHistory
  | createAdministrativeEventHistoryExport => .createEventHistoryExport
  | pruneAdministrativeEventHistoryExports => .pruneEventHistoryExports

def EventHistoryMutation.event : EventHistoryMutation → AdministrativeEventOperation
  | rotateAdministrativeEventHistory => .rotateAdministrativeEventHistory
  | updateAdministrativeEventHistoryRetention => .updateAdministrativeEventHistoryRetention
  | pruneAdministrativeEventHistory => .pruneAdministrativeEventHistory
  | createAdministrativeEventHistoryExport => .createAdministrativeEventHistoryExport
  | pruneAdministrativeEventHistoryExports => .pruneAdministrativeEventHistoryExports

def runEventHistoryMutation (mutation : EventHistoryMutation) (details : JsValue) :
    AdministrationProg ρ ρ :=
  runMutation mutation.operation mutation.event details
    (.obj [("outcome", .str "succeeded")])
    (.obj [("failureCode", .str "administrative_audit_failed")])
    .auditFailedAfterEventHistoryOperation

/-- A mutation of the composition; the details of a request for an export are the value that
was asked with. -/
inductive ProtectedMutation where
  | service (mutation : ServiceMutation) (serviceId : String)
  | machineSchedule (mutation : MachineScheduleMutation)
  | backup (mutation : BackupMutation) (targetId : String)
  | backupSchedulerTick
  | eventHistory (mutation : EventHistoryMutation) (details : JsValue)

namespace ProtectedMutation

def operation : ProtectedMutation → AdministrativeOperation
  | service mutation _ => mutation.operation
  | machineSchedule mutation => mutation.operation
  | backup mutation _ => mutation.operation
  | backupSchedulerTick => .runBackupSchedulerTick
  | eventHistory mutation _ => mutation.operation

def event : ProtectedMutation → AdministrativeEventOperation
  | service mutation _ => mutation.event
  | machineSchedule mutation => mutation.event
  | backup mutation _ => mutation.event
  | backupSchedulerTick => .runBackupSchedulerTick
  | eventHistory mutation _ => mutation.event

def execute : ProtectedMutation → AdministrationProg ρ ρ
  | service mutation serviceId => runServiceMutation mutation serviceId
  | machineSchedule mutation => runMachineScheduleMutation mutation
  | backup mutation targetId => runBackupMutation mutation targetId
  | backupSchedulerTick => runBackupSchedulerTick
  | eventHistory mutation details => runEventHistoryMutation mutation details

end ProtectedMutation

end Programs

end AtlasManager.AccessControl
