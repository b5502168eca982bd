import AtlasManager.Lib.Calendar
import AtlasManager.Lib.Graph
import AtlasManager.Lib.Prog
import AtlasManager.Lib.Js
import AtlasManager.Lib.Grid
import AtlasManager.Lib.Ledger
import AtlasManager.Scheduling.Transitions
import AtlasManager.Scheduling.SchedulerLoop
import AtlasManager.Service.StopOrchestration
import AtlasManager.Service.ReconciliationTick
import AtlasManager.Service.AvailabilityInterval
import AtlasManager.Service.ControlOrchestration
import AtlasManager.Service.CycleProgress
import AtlasManager.Service.RestartPlan
import AtlasManager.Power.PlanAgreement
import AtlasManager.Power.PlanEvaluation
import AtlasManager.Power.PreparationReports
import AtlasManager.Power.SchedulerTick
import AtlasManager.Backup.SchedulerRuns
import AtlasManager.Backup.PolicyMutations
import AtlasManager.Backup.RetentionRuns
import AtlasManager.Backup.RunStoreRefinement
import AtlasManager.Backup.ManifestOrder
import AtlasManager.Backup.FilesystemRun
import AtlasManager.AccessControl.AuditedOutcomes
import AtlasManager.Deployment.ActivationOutcomes
import AtlasManager.AccessControl.CloudflareAccessJwks
import AtlasManager.PowerHelper.InstallLock
import AtlasManager.PowerHelper.Rtc
import AtlasManager.PowerHelper.ProtocolAgreement
import AtlasManager.PowerHelper.InstallerSafety
import AtlasManager.PowerHelper.GroupFile
import AtlasManager.Config.Environment
import AtlasManager.Config.StrictJson
import AtlasManager.AccessControl.CloudflareAccessJwtVerifier
import AtlasManager.Lib.Stateful
import AtlasManager.Backup.RetentionSelection
import AtlasManager.EventHistory.RecordLines
import AtlasManager.Power.MachineOperatingPolicy
import AtlasManager.Service.AvailabilityPolicyStore
import AtlasManager.Service.ReadinessWait
import AtlasManager.Service.OverridePruning
import AtlasManager.Deployment.AdministrativeConfiguration
import AtlasManager.Dashboard.EditorRoundTrip
import AtlasManager.Dashboard.RefreshCoordinator
import AtlasManager.EventHistory.HistoryPruning
import AtlasManager.EventHistory.HistoryPaging
import AtlasManager.EventHistory.MigratedHistory
