import AtlasManager.Backup.BackupRun

/-!
# AtlasManager.AccessControl.AdministrativeOperation

Who may do what: the operations, the permissions they need, and the roles that
give them.
-/

namespace AtlasManager.AccessControl

open AtlasManager.Lib AtlasManager.Backup

/-! ## Permissions -/

/-- What a role can allow. -/
inductive AdministrativePermission where
  | powerWakeRead
  | powerWakeSchedule
  | powerWakeCancel
  | powerShutdownRequest
  | powerShutdownPrepare
  | powerShutdownExecute
  | powerSchedulerTick
  | powerScheduleRead
  | powerScheduleWrite
  | eventHistoryRead
  | servicesRead
  | servicesStart
  | servicesStop
  | servicesRestart
  | servicesAvailabilityRead
  | servicesAvailabilityWrite
  | operationsRead
  | dashboardRead
  | securityPostureRead
  | infrastructureDiagnosticsRead
  | backupsTargetsRead
  | backupsRunsRead
  | backupsRun
  | backupsScheduleRead
  | backupsScheduleWrite
  | backupsRetentionRead
  | backupsRetentionWrite
  | backupsRetentionPrune
  | backupsSchedulerTick
  | eventHistoryIntegrityRead
  | eventHistoryRotationRun
  | eventHistoryRetentionRead
  | eventHistoryRetentionWrite
  | eventHistoryRetentionPrune
  | eventHistoryExportsRead
  | eventHistoryExportsCreate
  | eventHistoryExportsDownload
  | eventHistoryExportsPrune
  deriving DecidableEq, Repr

namespace AdministrativePermission

/-- The name of a permission in a role file. -/
def text : AdministrativePermission → String
  | powerWakeRead => "power.wake.read"
  | powerWakeSchedule => "power.wake.schedule"
  | powerWakeCancel => "power.wake.cancel"
  | powerShutdownRequest => "power.shutdown.request"
  | powerShutdownPrepare => "power.shutdown.prepare"
  | powerShutdownExecute => "power.shutdown.execute"
  | powerSchedulerTick => "power.scheduler.tick"
  | powerScheduleRead => "power.schedule.read"
  | powerScheduleWrite => "power.schedule.write"
  | eventHistoryRead => "event_history.read"
  | servicesRead => "services.read"
  | servicesStart => "services.start"
  | servicesStop => "services.stop"
  | servicesRestart => "services.restart"
  | servicesAvailabilityRead => "services.availability.read"
  | servicesAvailabilityWrite => "services.availability.write"
  | operationsRead => "operations.read"
  | dashboardRead => "dashboard.read"
  | securityPostureRead => "security.posture.read"
  | infrastructureDiagnosticsRead => "infrastructure.diagnostics.read"
  | backupsTargetsRead => "backups.targets.read"
  | backupsRunsRead => "backups.runs.read"
  | backupsRun => "backups.run"
  | backupsScheduleRead => "backups.schedule.read"
  | backupsScheduleWrite => "backups.schedule.write"
  | backupsRetentionRead => "backups.retention.read"
  | backupsRetentionWrite => "backups.retention.write"
  | backupsRetentionPrune => "backups.retention.prune"
  | backupsSchedulerTick => "backups.scheduler.tick"
  | eventHistoryIntegrityRead => "event_history.integrity.read"
  | eventHistoryRotationRun => "event_history.rotation.run"
  | eventHistoryRetentionRead => "event_history.retention.read"
  | eventHistoryRetentionWrite => "event_history.retention.write"
  | eventHistoryRetentionPrune => "event_history.retention.prune"
  | eventHistoryExportsRead => "event_history.exports.read"
  | eventHistoryExportsCreate => "event_history.exports.create"
  | eventHistoryExportsDownload => "event_history.exports.download"
  | eventHistoryExportsPrune => "event_history.exports.prune"

/-- `ADMINISTRATIVE_PERMISSIONS`. -/
def all : List AdministrativePermission :=
  [.powerWakeRead, .powerWakeSchedule, .powerWakeCancel, .powerShutdownRequest,
    .powerShutdownPrepare, .powerShutdownExecute, .powerSchedulerTick, .powerScheduleRead,
    .powerScheduleWrite, .eventHistoryRead, .servicesRead, .servicesStart, .servicesStop,
    .servicesRestart, .servicesAvailabilityRead, .servicesAvailabilityWrite, .operationsRead,
    .dashboardRead, .securityPostureRead, .infrastructureDiagnosticsRead, .backupsTargetsRead,
    .backupsRunsRead, .backupsRun, .backupsScheduleRead, .backupsScheduleWrite,
    .backupsRetentionRead, .backupsRetentionWrite, .backupsRetentionPrune, .backupsSchedulerTick,
    .eventHistoryIntegrityRead, .eventHistoryRotationRun, .eventHistoryRetentionRead,
    .eventHistoryRetentionWrite, .eventHistoryRetentionPrune, .eventHistoryExportsRead,
    .eventHistoryExportsCreate, .eventHistoryExportsDownload, .eventHistoryExportsPrune]

end AdministrativePermission

/-! ## Operations -/

/-- What a principal can ask for. -/
inductive AdministrativeOperation where
  | readWakeAlarm
  | scheduleWakeAlarm
  | cancelWakeAlarm
  | requestMachineShutdown
  | prepareMachineShutdownOccurrence
  | executeMachineShutdownOccurrence
  | runMachinePowerSchedulerTick
  | readMachineOperatingPolicy
  | readMachineOperatingPolicyPreview
  | updateMachineOperatingPolicy
  | removeMachineOperatingPolicy
  | readAdministrativeEventHistory
  | readRegisteredServices
  | readRegisteredService
  | readRegisteredServiceLogs
  | readRegisteredServiceResources
  | startRegisteredService
  | stopRegisteredService
  | restartRegisteredService
  | readRegisteredServiceAvailability
  | readRegisteredServiceAvailabilityPreview
  | readRegisteredServiceSchedule
  | readRegisteredServiceSchedulePreview
  | updateRegisteredServiceAvailability
  | removeRegisteredServiceAvailability
  | updateRegisteredServiceSchedule
  | removeRegisteredServiceSchedule
  | readOperationsOverview
  | readAdministrativeDashboard
  | readAdministrativeSecurityPosture
  | readInfrastructureDiagnostics
  | readRegisteredBackupTargets
  | readRegisteredBackupTarget
  | readBackupRuns
  | readBackupRun
  | runRegisteredBackup
  | readBackupSchedule
  | updateBackupSchedule
  | removeBackupSchedule
  | readBackupRetention
  | updateBackupRetention
  | runBackupRetentionPrune
  | runBackupSchedulerTick
  | verifyEventHistoryIntegrity
  | rotateEventHistory
  | readEventHistoryRetention
  | updateEventHistoryRetention
  | pruneEventHistory
  | listEventHistoryExports
  | readEventHistoryExport
  | createEventHistoryExport
  | downloadEventHistoryExport
  | pruneEventHistoryExports
  deriving DecidableEq, Repr

namespace AdministrativeOperation

/-- The name of an operation in the event history. -/
def text : AdministrativeOperation → String
  | readWakeAlarm => "read_wake_alarm"
  | scheduleWakeAlarm => "schedule_wake_alarm"
  | cancelWakeAlarm => "cancel_wake_alarm"
  | requestMachineShutdown => "request_machine_shutdown"
  | prepareMachineShutdownOccurrence => "prepare_machine_shutdown_occurrence"
  | executeMachineShutdownOccurrence => "execute_machine_shutdown_occurrence"
  | runMachinePowerSchedulerTick => "run_machine_power_scheduler_tick"
  | readMachineOperatingPolicy => "read_machine_operating_policy"
  | readMachineOperatingPolicyPreview => "read_machine_operating_policy_preview"
  | updateMachineOperatingPolicy => "update_machine_operating_policy"
  | removeMachineOperatingPolicy => "remove_machine_operating_policy"
  | readAdministrativeEventHistory => "read_administrative_event_history"
  | readRegisteredServices => "read_registered_services"
  | readRegisteredService => "read_registered_service"
  | readRegisteredServiceLogs => "read_registered_service_logs"
  | readRegisteredServiceResources => "read_registered_service_resources"
  | startRegisteredService => "start_registered_service"
  | stopRegisteredService => "stop_registered_service"
  | restartRegisteredService => "restart_registered_service"
  | readRegisteredServiceAvailability => "read_registered_service_availability"
  | readRegisteredServiceAvailabilityPreview => "read_registered_service_availability_preview"
  | readRegisteredServiceSchedule => "read_registered_service_schedule"
  | readRegisteredServiceSchedulePreview => "read_registered_service_schedule_preview"
  | updateRegisteredServiceAvailability => "update_registered_service_availability"
  | removeRegisteredServiceAvailability => "remove_registered_service_availability"
  | updateRegisteredServiceSchedule => "update_registered_service_schedule"
  | removeRegisteredServiceSchedule => "remove_registered_service_schedule"
  | readOperationsOverview => "read_operations_overview"
  | readAdministrativeDashboard => "read_administrative_dashboard"
  | readAdministrativeSecurityPosture => "read_administrative_security_posture"
  | readInfrastructureDiagnostics => "read_infrastructure_diagnostics"
  | readRegisteredBackupTargets => "read_registered_backup_targets"
  | readRegisteredBackupTarget => "read_registered_backup_target"
  | readBackupRuns => "read_backup_runs"
  | readBackupRun => "read_backup_run"
  | runRegisteredBackup => "run_registered_backup"
  | readBackupSchedule => "read_backup_schedule"
  | updateBackupSchedule => "update_backup_schedule"
  | removeBackupSchedule => "remove_backup_schedule"
  | readBackupRetention => "read_backup_retention"
  | updateBackupRetention => "update_backup_retention"
  | runBackupRetentionPrune => "run_backup_retention_prune"
  | runBackupSchedulerTick => "run_backup_scheduler_tick"
  | verifyEventHistoryIntegrity => "verify_event_history_integrity"
  | rotateEventHistory => "rotate_event_history"
  | readEventHistoryRetention => "read_event_history_retention"
  | updateEventHistoryRetention => "update_event_history_retention"
  | pruneEventHistory => "prune_event_history"
  | listEventHistoryExports => "list_event_history_exports"
  | readEventHistoryExport => "read_event_history_export"
  | createEventHistoryExport => "create_event_history_export"
  | downloadEventHistoryExport => "download_event_history_export"
  | pruneEventHistoryExports => "prune_event_history_exports"

/-- `ADMINISTRATIVE_OPERATIONS`. -/
def all : List AdministrativeOperation :=
  [.readWakeAlarm, .scheduleWakeAlarm, .cancelWakeAlarm, .requestMachineShutdown,
    .prepareMachineShutdownOccurrence, .executeMachineShutdownOccurrence,
    .runMachinePowerSchedulerTick, .readMachineOperatingPolicy, .readMachineOperatingPolicyPreview,
    .updateMachineOperatingPolicy, .removeMachineOperatingPolicy, .readAdministrativeEventHistory,
    .readRegisteredServices, .readRegisteredService, .readRegisteredServiceLogs,
    .readRegisteredServiceResources, .startRegisteredService, .stopRegisteredService,
    .restartRegisteredService, .readRegisteredServiceAvailability,
    .readRegisteredServiceAvailabilityPreview, .readRegisteredServiceSchedule,
    .readRegisteredServiceSchedulePreview, .updateRegisteredServiceAvailability,
    .removeRegisteredServiceAvailability, .updateRegisteredServiceSchedule,
    .removeRegisteredServiceSchedule, .readOperationsOverview, .readAdministrativeDashboard,
    .readAdministrativeSecurityPosture, .readInfrastructureDiagnostics,
    .readRegisteredBackupTargets, .readRegisteredBackupTarget, .readBackupRuns, .readBackupRun,
    .runRegisteredBackup, .readBackupSchedule, .updateBackupSchedule, .removeBackupSchedule,
    .readBackupRetention, .updateBackupRetention, .runBackupRetentionPrune,
    .runBackupSchedulerTick, .verifyEventHistoryIntegrity, .rotateEventHistory,
    .readEventHistoryRetention, .updateEventHistoryRetention, .pruneEventHistory,
    .listEventHistoryExports, .readEventHistoryExport, .createEventHistoryExport,
    .downloadEventHistoryExport, .pruneEventHistoryExports]

/-- The list is complete. -/
theorem mem_all (operation : AdministrativeOperation) : operation ∈ all := by
  cases operation <;> decide

/-- A name stands for its operation. -/
@[simp] theorem oneOf_text (operation : AdministrativeOperation) :
    oneOf all text (.str operation.text) = some operation := by
  have hall : ∀ operation ∈ all, oneOf all text (.str operation.text) = some operation := by
    decide +kernel
  exact hall operation (mem_all operation)

/-- `permissionForAdministrativeOperation`. -/
def permission : AdministrativeOperation → AdministrativePermission
  | readWakeAlarm => .powerWakeRead
  | scheduleWakeAlarm => .powerWakeSchedule
  | cancelWakeAlarm => .powerWakeCancel
  | requestMachineShutdown => .powerShutdownRequest
  | prepareMachineShutdownOccurrence => .powerShutdownPrepare
  | executeMachineShutdownOccurrence => .powerShutdownExecute
  | runMachinePowerSchedulerTick => .powerSchedulerTick
  | readMachineOperatingPolicy | readMachineOperatingPolicyPreview => .powerScheduleRead
  | updateMachineOperatingPolicy | removeMachineOperatingPolicy => .powerScheduleWrite
  | readAdministrativeEventHistory => .eventHistoryRead
  | readRegisteredServices | readRegisteredService
  | readRegisteredServiceLogs | readRegisteredServiceResources => .servicesRead
  | startRegisteredService => .servicesStart
  | stopRegisteredService => .servicesStop
  | restartRegisteredService => .servicesRestart
  | readRegisteredServiceAvailability | readRegisteredServiceAvailabilityPreview
  | readRegisteredServiceSchedule | readRegisteredServiceSchedulePreview => .servicesAvailabilityRead
  | updateRegisteredServiceAvailability | removeRegisteredServiceAvailability
  | updateRegisteredServiceSchedule | removeRegisteredServiceSchedule => .servicesAvailabilityWrite
  | readOperationsOverview => .operationsRead
  | readAdministrativeDashboard => .dashboardRead
  | readAdministrativeSecurityPosture => .securityPostureRead
  | readInfrastructureDiagnostics => .infrastructureDiagnosticsRead
  | readRegisteredBackupTargets | readRegisteredBackupTarget => .backupsTargetsRead
  | readBackupRuns | readBackupRun => .backupsRunsRead
  | runRegisteredBackup => .backupsRun
  | readBackupSchedule => .backupsScheduleRead
  | updateBackupSchedule | removeBackupSchedule => .backupsScheduleWrite
  | readBackupRetention => .backupsRetentionRead
  | updateBackupRetention => .backupsRetentionWrite
  | runBackupRetentionPrune => .backupsRetentionPrune
  | runBackupSchedulerTick => .backupsSchedulerTick
  | verifyEventHistoryIntegrity => .eventHistoryIntegrityRead
  | rotateEventHistory => .eventHistoryRotationRun
  | readEventHistoryRetention => .eventHistoryRetentionRead
  | updateEventHistoryRetention => .eventHistoryRetentionWrite
  | pruneEventHistory => .eventHistoryRetentionPrune
  | listEventHistoryExports | readEventHistoryExport => .eventHistoryExportsRead
  | createEventHistoryExport => .eventHistoryExportsCreate
  | downloadEventHistoryExport => .eventHistoryExportsDownload
  | pruneEventHistoryExports => .eventHistoryExportsPrune

end AdministrativeOperation

/-! ## Roles -/

/-- The roles that a principal can be assigned. -/
inductive AdministrativeRole where
  | powerOperator
  | schedulerOperator
  | auditor
  | serviceOperator
  | backupOperator
  | auditOperator
  | administrator
  deriving DecidableEq, Repr

/-- The permissions of a role. -/
def AdministrativeRole.permissions : AdministrativeRole → List AdministrativePermission
  | powerOperator =>
    [.powerWakeRead, .powerWakeSchedule, .powerWakeCancel, .powerShutdownRequest,
      .powerShutdownPrepare, .powerShutdownExecute, .powerScheduleRead, .powerScheduleWrite,
      .operationsRead, .dashboardRead]
  | schedulerOperator =>
    [.powerSchedulerTick, .operationsRead, .dashboardRead]
  | auditor =>
    [.eventHistoryRead, .eventHistoryIntegrityRead, .eventHistoryExportsRead,
      .eventHistoryExportsCreate, .eventHistoryExportsDownload, .operationsRead, .dashboardRead,
      .backupsTargetsRead, .backupsRunsRead, .securityPostureRead, .infrastructureDiagnosticsRead]
  | serviceOperator =>
    [.servicesRead, .servicesStart, .servicesStop, .servicesRestart, .servicesAvailabilityRead,
      .servicesAvailabilityWrite, .operationsRead, .dashboardRead]
  | backupOperator =>
    [.backupsTargetsRead, .backupsRunsRead, .backupsRun, .backupsScheduleRead,
      .backupsScheduleWrite, .backupsRetentionRead, .backupsRetentionWrite, .backupsRetentionPrune,
      .backupsSchedulerTick, .operationsRead, .dashboardRead]
  | auditOperator =>
    [.eventHistoryRead, .eventHistoryIntegrityRead, .eventHistoryRotationRun,
      .eventHistoryRetentionRead, .eventHistoryRetentionWrite, .eventHistoryRetentionPrune,
      .eventHistoryExportsRead, .eventHistoryExportsCreate, .eventHistoryExportsDownload,
      .eventHistoryExportsPrune, .operationsRead, .dashboardRead, .securityPostureRead]
  | administrator =>
    [.powerWakeRead, .powerWakeSchedule, .powerWakeCancel, .powerShutdownRequest,
      .powerShutdownPrepare, .powerShutdownExecute, .powerSchedulerTick, .powerScheduleRead,
      .powerScheduleWrite, .eventHistoryRead, .servicesRead, .servicesStart, .servicesStop,
      .servicesRestart, .servicesAvailabilityRead, .servicesAvailabilityWrite, .operationsRead,
      .dashboardRead, .securityPostureRead, .backupsTargetsRead, .backupsRunsRead, .backupsRun,
      .backupsScheduleRead, .backupsScheduleWrite, .backupsRetentionRead, .backupsRetentionWrite,
      .backupsRetentionPrune, .backupsSchedulerTick, .eventHistoryIntegrityRead,
      .eventHistoryRotationRun, .eventHistoryRetentionRead, .eventHistoryRetentionWrite,
      .eventHistoryRetentionPrune, .eventHistoryExportsRead, .eventHistoryExportsCreate,
      .eventHistoryExportsDownload, .eventHistoryExportsPrune, .infrastructureDiagnosticsRead]

/-- `roleHasAdministrativePermission`. -/
def roleHasAdministrativePermission (role : AdministrativeRole)
    (permission : AdministrativePermission) : Bool :=
  permission ∈ role.permissions

/-! ## Principals -/

/-- People and programs. -/
inductive AdministrativePrincipalKind where
  | human
  | service
  deriving DecidableEq, Repr

/-- A principal, whose id is a canonical UUID. -/
structure AdministrativePrincipal where
  principalId : String
  kind : AdministrativePrincipalKind
  canonical : isRunId principalId = true

/-- The name of a principal in the event history, which says what kind it is of. -/
def administrativePrincipalActorId (principal : AdministrativePrincipal) : String :=
  match principal.kind with
  | .service => "service:" ++ principal.principalId
  | .human => "administrator:" ++ principal.principalId

end AtlasManager.AccessControl
