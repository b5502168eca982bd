import AtlasManager.Backup.BackupTarget
import AtlasManager.AccessControl.AdministrativeOperation

/-!
# AtlasManager.Config.Environment

The environment variables of the service and the rules they are checked
against: each variable on its own, and then all of them together.

Several rules keep the files of different stores apart.  The widest one, over
every configured path, is asked only where an event history file is
configured; the others name the variables they compare, and none of them names
a backup variable.

* `differ_of_mustDifferIssues` -- what the rules on two variables guarantee;
* `persistenceFilePaths_nodup_iff` -- when the files of an accepted
  environment are pairwise distinct.
-/

namespace AtlasManager.Config

open AtlasManager.Lib AtlasManager.AccessControl AtlasManager.Backup

/-! ## Records and issues -/

/-- The variables of the process, in the order in which the record has them. -/
abbrev Record := List (String × Option String)

/-- The value of a variable; `none` when it is absent or `undefined`. -/
def valueOf (record : Record) (name : String) : Option String := (record.lookup name).join

/-- `Object.hasOwn`. -/
def hasOwnVariable (record : Record) (name : String) : Bool := (record.lookup name).isSome

/-- An issue of a variable.  The rules over the whole environment are still asked
after an issue that continues. -/
structure Issue where
  path : String
  message : String
  continues : Bool
  deriving DecidableEq, Repr

/-- The parsers of values that other modules define. -/
structure Parsers where
  /-- `Number` of a text; `none` when it is not finite. -/
  number : String → Option Rat
  /-- Is the text strict JSON? -/
  parseStrictJson : String → Bool
  /-- The complaints of `machineOperatingPolicySchema`. -/
  machineOperatingPolicy : String → List String
  parseAdministrativePublicOrigin : String → Bool
  parseAdministrativeServiceTokenPrincipals : String → Bool
  /-- The roles of each assignment. -/
  parseAdministrativeRoleAssignments : String → Option (List (List AdministrativeRole))
  createBackupTargetCatalogFromEnvironment : String → Option (List BackupTarget)
  /-- `createRetentionPolicy` of a JSON text. -/
  createRetentionPolicy : String → Bool

/-! ## Single variables -/

def persistenceFilePathSchema (value : String) : List String :=
  if value.length = 0 then ["must not be empty"]
  else if trim value ≠ value then ["must not contain surrounding whitespace"]
  else if !isAbsolute value then ["must be an absolute path"]
  else []

def hasControlCharacter (value : String) : Bool :=
  value.toList.any fun c => c.toNat ≤ 0x1F || c.toNat = 0x7F

/-- `message` where `condition` holds. -/
def when (condition : Bool) (message : String) : List String :=
  if condition then [message] else []

def administrativeEventHistoryFileSchema (value : String) : List String :=
  if value.length = 0 then ["must not be empty"]
  else
    when (trim value ≠ value) "must not contain surrounding whitespace" ++
    when (hasControlCharacter value) "must not contain control characters" ++
    when (value = "/") "must not be the filesystem root" ++
    when (!isAbsolute value) "must be an absolute path"

/-- `/^[a-z0-9](?:[a-z0-9-]{0,61}[a-z0-9])?$/`: lowercase letters and digits, and
hyphens inside. -/
def isTeamName (value : String) : Bool :=
  let alphanumeric := fun c : Char => ('a' ≤ c && c ≤ 'z') || ('0' ≤ c && c ≤ '9')
  value.toList.all (fun c => alphanumeric c || c = '-') &&
    value.toList.head?.any alphanumeric && value.toList.getLast?.any alphanumeric

def cloudflareAccessTeamNameSchema (value : String) : List String :=
  when (value.length < 1 || value.length > 63 || trim value ≠ value || !isTeamName value)
    "must be a lowercase Cloudflare Access team name"

def cloudflareAccessAudienceSchema (value : String) : List String :=
  when (value.length < 1 || value.length > 256 || trim value ≠ value ||
      !value.toList.all (fun c => 0x21 ≤ c.toNat && c.toNat ≤ 0x7E) ||
      value.toList.contains ',' || value.toList.contains '"')
    "must be one non-empty ASCII audience value"

/-- A text in JSON of at most `bytes` bytes. -/
def boundedJsonSchema (bytes : Nat) (parses : Bool) (tooLong invalid : String)
    (value : String) : List String :=
  if value.utf8ByteSize > bytes then [tooLong] else when (!parses) invalid

def administrativeServiceTokenPrincipalsSchema (parsers : Parsers) (value : String) :
    List String :=
  boundedJsonSchema 8192 (parsers.parseAdministrativeServiceTokenPrincipals value)
    "must not exceed 8192 UTF-8 bytes" "must be a valid service-token principal JSON array" value

def administrativeRoleAssignmentsSchema (parsers : Parsers) (value : String) : List String :=
  boundedJsonSchema 16384 (parsers.parseAdministrativeRoleAssignments value).isSome
    "must not exceed 16384 UTF-8 bytes" "must be a valid role-assignment JSON array" value

def portSchema (parsers : Parsers) (name value : String) : List Issue :=
  match parsers.number value with
  | none => [⟨name, "must be a number", false⟩]
  | some port =>
    if port.den ≠ 1 then [⟨name, "must be an integer", false⟩]
    else if port < 1 ∨ 65535 < port then [⟨name, "must be between 1 and 65535", true⟩]
    else []

/-- A variable that may be missing; a complaint about its value continues. -/
def optionalVariable (record : Record) (schema : String → List String) (name : String) :
    List Issue :=
  match valueOf record name with
  | none => []
  | some value => (schema value).map fun message => ⟨name, message, true⟩

/-- A variable with a default whose value is one of some words. -/
def enumVariable (record : Record) (words : List String) (error name : String) : List Issue :=
  match valueOf record name with
  | none => []
  | some value => if value ∈ words then [] else [⟨name, error, false⟩]

def flagNames : List String :=
  ["MACHINE_POWER_SCHEDULER_ENABLED", "BACKUP_SCHEDULER_ENABLED",
    "ADMINISTRATIVE_EVENT_HISTORY_HTTP_ENABLED",
    "ADMINISTRATIVE_EVENT_HISTORY_OPERATIONS_HTTP_ENABLED",
    "ADMINISTRATIVE_WAKE_ALARM_HTTP_ENABLED", "ADMINISTRATIVE_SHUTDOWN_HTTP_ENABLED",
    "ADMINISTRATIVE_SERVICE_MANAGEMENT_HTTP_ENABLED",
    "ADMINISTRATIVE_SERVICE_AVAILABILITY_HTTP_ENABLED", "ADMINISTRATIVE_OVERVIEW_HTTP_ENABLED",
    "ADMINISTRATIVE_DASHBOARD_ENABLED", "ADMINISTRATIVE_BACKUP_HTTP_ENABLED",
    "ADMINISTRATIVE_SECURITY_STATUS_HTTP_ENABLED",
    "ADMINISTRATIVE_INFRASTRUCTURE_DIAGNOSTICS_HTTP_ENABLED",
    "ADMINISTRATIVE_EVENT_HISTORY_AUTOMATIC_RETENTION_ENABLED"]

/-- The variables with `persistenceFilePathSchema`. -/
def persistencePathNames : List String :=
  ["SERVICE_AVAILABILITY_RECONCILIATION_SCHEDULER_CURSOR_FILE",
    "SERVICE_AVAILABILITY_RECONCILIATION_OCCURRENCE_CLAIM_FILE",
    "SERVICE_AVAILABILITY_OVERRIDE_FILE", "SERVICE_AVAILABILITY_POLICY_FILE",
    "MACHINE_OPERATING_POLICY_FILE", "BACKUP_RUN_HISTORY_FILE", "BACKUP_SCHEDULER_CURSOR_FILE",
    "BACKUP_OCCURRENCE_CLAIM_FILE", "ADMINISTRATIVE_EVENT_HISTORY_DIRECTORY"]

/-- The variables with `administrativeEventHistoryFileSchema`. -/
def eventHistoryPathNames : List String :=
  ["ADMINISTRATIVE_EVENT_HISTORY_FILE", "MACHINE_SHUTDOWN_OCCURRENCE_CLAIM_FILE",
    "MACHINE_POWER_SCHEDULER_CURSOR_FILE"]

/-- `environmentObjectSchema`.  What has a default is not checked when it is missing. -/
def environmentObjectSchema (parsers : Parsers) (record : Record) : List Issue :=
  optionalVariable record (fun value => when (value.length < 1) "must not be empty") "HOST" ++
  (match valueOf record "PORT" with
    | none => []
    | some value => portSchema parsers "PORT" value) ++
  enumVariable record ["trace", "debug", "info", "warn", "error", "fatal", "silent"]
    "must be one of: trace, debug, info, warn, error, fatal, silent" "LOG_LEVEL" ++
  enumVariable record ["mock", "linux_helper"] "must be exactly mock or linux_helper"
    "POWER_MANAGEMENT_BACKEND" ++
  flagNames.flatMap (enumVariable record ["true", "false"] "must be exactly true or false") ++
  enumVariable record ["disabled", "linux_helper"] "must be exactly disabled or linux_helper"
    "MACHINE_POWER_EFFECTS_ACTIVATION" ++
  (parsers.machineOperatingPolicy
      ((valueOf record "MACHINE_OPERATING_POLICY").getD "\x7b\"mode\":\"always_on\"\x7d")).map
    (fun message => ⟨"MACHINE_OPERATING_POLICY", message, false⟩) ++
  persistencePathNames.flatMap (optionalVariable record persistenceFilePathSchema) ++
  eventHistoryPathNames.flatMap (optionalVariable record administrativeEventHistoryFileSchema) ++
  optionalVariable record cloudflareAccessTeamNameSchema "CLOUDFLARE_ACCESS_TEAM_NAME" ++
  optionalVariable record cloudflareAccessAudienceSchema "CLOUDFLARE_ACCESS_AUDIENCE" ++
  optionalVariable record (administrativeServiceTokenPrincipalsSchema parsers)
    "ADMINISTRATIVE_SERVICE_TOKEN_PRINCIPALS" ++
  optionalVariable record
    (fun value => when (!parsers.parseAdministrativePublicOrigin value)
      "must be a valid HTTPS administrative origin") "ADMINISTRATIVE_PUBLIC_ORIGIN" ++
  optionalVariable record (administrativeRoleAssignmentsSchema parsers)
    "ADMINISTRATIVE_ROLE_ASSIGNMENTS"

/-! ## The rules over the whole environment -/

/-- The issue of a rule. -/
def issueIf (condition : Bool) (path message : String) : List Issue :=
  if condition then [⟨path, message, true⟩] else []

/-- Is the flag set?  Every flag is off by default. -/
def enabled (record : Record) (name : String) : Bool := valueOf record name = some "true"

def isValidPersistenceFilePath (value : String) : Bool :=
  value.length > 0 && trim value = value && isAbsolute value

/-- The rule that a variable's path is not that of another one. -/
def mustDifferIssues (record : Record) (name other message : String) : List Issue :=
  match valueOf record name with
  | none => []
  | some value =>
    issueIf (isValidPersistenceFilePath value && valueOf record other = some value) name message

def servicePathIssues (record : Record) : List Issue :=
  mustDifferIssues record "SERVICE_AVAILABILITY_RECONCILIATION_OCCURRENCE_CLAIM_FILE"
    "SERVICE_AVAILABILITY_RECONCILIATION_SCHEDULER_CURSOR_FILE"
    "must differ from the scheduler cursor file path" ++
  mustDifferIssues record "SERVICE_AVAILABILITY_OVERRIDE_FILE"
    "SERVICE_AVAILABILITY_RECONCILIATION_SCHEDULER_CURSOR_FILE"
    "must differ from the scheduler cursor file path" ++
  mustDifferIssues record "SERVICE_AVAILABILITY_POLICY_FILE"
    "SERVICE_AVAILABILITY_RECONCILIATION_SCHEDULER_CURSOR_FILE"
    "must differ from the scheduler cursor file path" ++
  mustDifferIssues record "SERVICE_AVAILABILITY_POLICY_FILE"
    "SERVICE_AVAILABILITY_RECONCILIATION_OCCURRENCE_CLAIM_FILE"
    "must differ from the occurrence claim file path" ++
  mustDifferIssues record "SERVICE_AVAILABILITY_POLICY_FILE" "SERVICE_AVAILABILITY_OVERRIDE_FILE"
    "must differ from the availability override file path" ++
  mustDifferIssues record "SERVICE_AVAILABILITY_OVERRIDE_FILE"
    "SERVICE_AVAILABILITY_RECONCILIATION_OCCURRENCE_CLAIM_FILE"
    "must differ from the occurrence claim file path"

def accessIssues (record : Record) : List Issue :=
  let hasTeamName := (valueOf record "CLOUDFLARE_ACCESS_TEAM_NAME").isSome
  let hasAudience := (valueOf record "CLOUDFLARE_ACCESS_AUDIENCE").isSome
  issueIf (hasTeamName != hasAudience)
    (if hasTeamName then "CLOUDFLARE_ACCESS_TEAM_NAME" else "CLOUDFLARE_ACCESS_AUDIENCE")
    "must be configured together"

def isSha256Digest (value : String) : Bool :=
  value.length = 64 &&
    value.toList.all (fun c => ('0' ≤ c && c ≤ '9') || ('a' ≤ c && c ≤ 'f')) &&
    !value.toList.all (· = '0')

def powerEffectsIssues (record : Record) : List Issue :=
  let backend := (valueOf record "POWER_MANAGEMENT_BACKEND").getD "mock"
  let activation := (valueOf record "MACHINE_POWER_EFFECTS_ACTIVATION").getD "disabled"
  let surface := enabled record "ADMINISTRATIVE_WAKE_ALARM_HTTP_ENABLED" ||
    enabled record "ADMINISTRATIVE_SHUTDOWN_HTTP_ENABLED" ||
    enabled record "MACHINE_POWER_SCHEDULER_ENABLED"
  let confirmation := valueOf record "MACHINE_POWER_EFFECTS_CONFIRMATION"
  let digest := valueOf record "LINUX_POWER_HELPER_EXPECTED_SHA256"
  issueIf (backend = "mock" && activation = "linux_helper") "MACHINE_POWER_EFFECTS_ACTIVATION"
    "linux_helper activation requires the linux_helper backend" ++
  issueIf (backend = "linux_helper" && surface && activation = "disabled")
    "MACHINE_POWER_EFFECTS_ACTIVATION"
    "must admit Linux power effects for enabled power surfaces" ++
  issueIf (activation = "linux_helper" && !surface) "MACHINE_POWER_EFFECTS_ACTIVATION"
    "requires at least one enabled power surface" ++
  if activation = "linux_helper" then
    issueIf (confirmation ≠ some "confirm_linux_helper_power_effects")
      "MACHINE_POWER_EFFECTS_CONFIRMATION"
      "must be the exact Linux power-effects confirmation" ++
    issueIf (!digest.any isSha256Digest) "LINUX_POWER_HELPER_EXPECTED_SHA256"
      "must be a nonzero lowercase SHA-256 digest"
  else
    issueIf confirmation.isSome "MACHINE_POWER_EFFECTS_CONFIRMATION"
      "must be omitted when Linux power effects are disabled" ++
    issueIf digest.isSome "LINUX_POWER_HELPER_EXPECTED_SHA256"
      "must be omitted when Linux power effects are disabled"

/-- Some assigned role has a permission. -/
def someRoleMay (assignments : List (List AdministrativeRole))
    (permission : AdministrativePermission) : Bool :=
  assignments.any fun roles => roles.any (roleHasAdministrativePermission · permission)

/-- The rule that an enabled surface has somebody to use it. -/
def roleIssues (record : Record) (assignments : List (List AdministrativeRole)) : List Issue :=
  let powerOperator := assignments.any fun roles =>
    roles.contains .powerOperator || roles.contains .administrator
  let operations := enabled record "ADMINISTRATIVE_EVENT_HISTORY_OPERATIONS_HTTP_ENABLED"
  let require := fun (surface may : Bool) (message : String) =>
    issueIf (surface && !may) "ADMINISTRATIVE_ROLE_ASSIGNMENTS" message
  require (enabled record "ADMINISTRATIVE_EVENT_HISTORY_HTTP_ENABLED" || operations)
    (someRoleMay assignments .eventHistoryRead) "must include an auditor or administrator" ++
  require (enabled record "ADMINISTRATIVE_WAKE_ALARM_HTTP_ENABLED") powerOperator
    "must include a power operator or administrator" ++
  require (enabled record "ADMINISTRATIVE_SHUTDOWN_HTTP_ENABLED") powerOperator
    "must include a power operator or administrator" ++
  require (enabled record "ADMINISTRATIVE_SERVICE_MANAGEMENT_HTTP_ENABLED" ||
      enabled record "ADMINISTRATIVE_SERVICE_AVAILABILITY_HTTP_ENABLED")
    (someRoleMay assignments .servicesRead) "must include a service operator or administrator" ++
  require (enabled record "ADMINISTRATIVE_OVERVIEW_HTTP_ENABLED")
    (someRoleMay assignments .operationsRead) "must include an operations reader" ++
  require (enabled record "ADMINISTRATIVE_DASHBOARD_ENABLED")
    (someRoleMay assignments .dashboardRead) "must include a dashboard reader" ++
  require (enabled record "ADMINISTRATIVE_BACKUP_HTTP_ENABLED")
    (someRoleMay assignments .backupsTargetsRead) "must include a backup reader" ++
  require operations (someRoleMay assignments .eventHistoryIntegrityRead)
    "must include an event-history integrity reader" ++
  require (enabled record "ADMINISTRATIVE_SECURITY_STATUS_HTTP_ENABLED")
    (someRoleMay assignments .securityPostureRead) "must include a security posture reader"

/-- The flags of the administrative surfaces. -/
def administrativeHttpNames : List String :=
  ["ADMINISTRATIVE_EVENT_HISTORY_HTTP_ENABLED",
    "ADMINISTRATIVE_EVENT_HISTORY_OPERATIONS_HTTP_ENABLED",
    "ADMINISTRATIVE_WAKE_ALARM_HTTP_ENABLED", "ADMINISTRATIVE_SHUTDOWN_HTTP_ENABLED",
    "ADMINISTRATIVE_SERVICE_MANAGEMENT_HTTP_ENABLED",
    "ADMINISTRATIVE_SERVICE_AVAILABILITY_HTTP_ENABLED", "ADMINISTRATIVE_OVERVIEW_HTTP_ENABLED",
    "ADMINISTRATIVE_DASHBOARD_ENABLED", "ADMINISTRATIVE_BACKUP_HTTP_ENABLED",
    "ADMINISTRATIVE_SECURITY_STATUS_HTTP_ENABLED",
    "ADMINISTRATIVE_INFRASTRUCTURE_DIAGNOSTICS_HTTP_ENABLED"]

def administrationIssues (parsers : Parsers) (record : Record) : List Issue :=
  let history := enabled record "ADMINISTRATIVE_EVENT_HISTORY_HTTP_ENABLED"
  let operations := enabled record "ADMINISTRATIVE_EVENT_HISTORY_OPERATIONS_HTTP_ENABLED"
  let file := valueOf record "ADMINISTRATIVE_EVENT_HISTORY_FILE"
  let directory := valueOf record "ADMINISTRATIVE_EVENT_HISTORY_DIRECTORY"
  if administrativeHttpNames.any (enabled record) then
    issueIf ((valueOf record "HOST").getD "127.0.0.1" ≠ "127.0.0.1") "HOST"
      "must be exactly 127.0.0.1 when administration is enabled" ++
    issueIf ((valueOf record "CLOUDFLARE_ACCESS_TEAM_NAME").isNone ||
        (valueOf record "CLOUDFLARE_ACCESS_AUDIENCE").isNone) "CLOUDFLARE_ACCESS_TEAM_NAME"
      "is required when administration is enabled" ++
    issueIf (valueOf record "ADMINISTRATIVE_PUBLIC_ORIGIN").isNone "ADMINISTRATIVE_PUBLIC_ORIGIN"
      "is required when administration is enabled" ++
    issueIf (file.isNone && directory.isNone)
      (if operations then "ADMINISTRATIVE_EVENT_HISTORY_DIRECTORY"
        else "ADMINISTRATIVE_EVENT_HISTORY_FILE") "is required when administration is enabled" ++
    issueIf (operations && (directory.isNone || file.isSome))
      "ADMINISTRATIVE_EVENT_HISTORY_DIRECTORY"
      "version-two persistence requires one fixed directory and no version-one file" ++
    issueIf (operations && !history) "ADMINISTRATIVE_EVENT_HISTORY_HTTP_ENABLED"
      "must be enabled for operational event-history delivery" ++
    match valueOf record "ADMINISTRATIVE_ROLE_ASSIGNMENTS" with
    | none => issueIf true "ADMINISTRATIVE_ROLE_ASSIGNMENTS"
        "is required when administration is enabled"
    | some value =>
      match parsers.parseAdministrativeRoleAssignments value with
      | none => []  -- the variable's own rule has complained
      | some assignments => roleIssues record assignments
  else []

/-- The paths of the widest rule, in its order. -/
def configuredPaths (record : Record) : List String :=
  ["SERVICE_AVAILABILITY_RECONCILIATION_SCHEDULER_CURSOR_FILE",
    "SERVICE_AVAILABILITY_RECONCILIATION_OCCURRENCE_CLAIM_FILE",
    "SERVICE_AVAILABILITY_OVERRIDE_FILE", "SERVICE_AVAILABILITY_POLICY_FILE",
    "ADMINISTRATIVE_EVENT_HISTORY_FILE", "ADMINISTRATIVE_EVENT_HISTORY_DIRECTORY",
    "MACHINE_SHUTDOWN_OCCURRENCE_CLAIM_FILE", "MACHINE_POWER_SCHEDULER_CURSOR_FILE",
    "MACHINE_OPERATING_POLICY_FILE", "BACKUP_RUN_HISTORY_FILE", "BACKUP_SCHEDULER_CURSOR_FILE",
    "BACKUP_OCCURRENCE_CLAIM_FILE"].filterMap (valueOf record)

def configuredPathIssues (record : Record) : List Issue :=
  issueIf ((valueOf record "ADMINISTRATIVE_EVENT_HISTORY_FILE").isSome &&
      (distinct (configuredPaths record)).length ≠ (configuredPaths record).length)
    "ADMINISTRATIVE_EVENT_HISTORY_FILE" "must differ from every other persistence file"

/-- The number of a text of digits. -/
def digits? (value : String) : Option Nat :=
  if value = "" then none else readDigits 0 value.toList

/-- A variable that is a number between two bounds, when it is there. -/
def segmentBoundIssues (record : Record) (name : String) (low high : Nat) (message : String) :
    List Issue :=
  match valueOf record name with
  | none => []
  | some value => issueIf (!(digits? value).any fun n => low ≤ n && n ≤ high) name message

def eventHistoryIssues (parsers : Parsers) (record : Record) : List Issue :=
  let policy := valueOf record "ADMINISTRATIVE_EVENT_HISTORY_RETENTION_POLICY"
  if enabled record "ADMINISTRATIVE_EVENT_HISTORY_OPERATIONS_HTTP_ENABLED" then
    issueIf (policy.any fun value => !parsers.createRetentionPolicy value)
      "ADMINISTRATIVE_EVENT_HISTORY_RETENTION_POLICY"
      "must be a valid version-two retention policy" ++
    segmentBoundIssues record "ADMINISTRATIVE_EVENT_HISTORY_MAX_SEGMENT_EVENTS" 100 100000
      "must be between 100 and 100000" ++
    segmentBoundIssues record "ADMINISTRATIVE_EVENT_HISTORY_MAX_SEGMENT_BYTES" 1048576 67108864
      "must be between 1048576 and 67108864" ++
    issueIf (valueOf record "ADMINISTRATIVE_EVENT_HISTORY_DIRECTORY").isNone
      "ADMINISTRATIVE_EVENT_HISTORY_DIRECTORY" "is required for version-two persistence" ++
    issueIf policy.isNone "ADMINISTRATIVE_EVENT_HISTORY_RETENTION_POLICY"
      "is required for version-two persistence"
  else []

def servicePersistencePaths (record : Record) : List String :=
  ["SERVICE_AVAILABILITY_RECONCILIATION_SCHEDULER_CURSOR_FILE",
    "SERVICE_AVAILABILITY_RECONCILIATION_OCCURRENCE_CLAIM_FILE",
    "SERVICE_AVAILABILITY_OVERRIDE_FILE",
    "SERVICE_AVAILABILITY_POLICY_FILE"].filterMap (valueOf record)

def machinePathIssues (record : Record) : List Issue :=
  let claimFile := valueOf record "MACHINE_SHUTDOWN_OCCURRENCE_CLAIM_FILE"
  let cursorFile := valueOf record "MACHINE_POWER_SCHEDULER_CURSOR_FILE"
  let policyFile := valueOf record "MACHINE_OPERATING_POLICY_FILE"
  ["MACHINE_SHUTDOWN_OCCURRENCE_CLAIM_FILE", "MACHINE_POWER_SCHEDULER_CURSOR_FILE",
    "MACHINE_OPERATING_POLICY_FILE"].flatMap (fun name =>
      issueIf ((valueOf record name).any (servicePersistencePaths record).contains) name
        "must differ from service-management persistence files") ++
  issueIf (policyFile.any fun value => isValidPersistenceFilePath value &&
      (claimFile = some value || cursorFile = some value)) "MACHINE_OPERATING_POLICY_FILE"
    "must differ from the machine shutdown occurrence claim and power scheduler cursor file paths" ++
  issueIf (claimFile.isNone != cursorFile.isNone)
    (if claimFile.isNone then "MACHINE_SHUTDOWN_OCCURRENCE_CLAIM_FILE"
      else "MACHINE_POWER_SCHEDULER_CURSOR_FILE") "must be configured together" ++
  issueIf (enabled record "ADMINISTRATIVE_SHUTDOWN_HTTP_ENABLED" &&
      (claimFile.isNone || cursorFile.isNone)) "MACHINE_SHUTDOWN_OCCURRENCE_CLAIM_FILE"
    "is required when shutdown administration is enabled" ++
  mustDifferIssues record "MACHINE_SHUTDOWN_OCCURRENCE_CLAIM_FILE"
    "MACHINE_POWER_SCHEDULER_CURSOR_FILE" "must differ from the scheduler cursor file path" ++
  if enabled record "MACHINE_POWER_SCHEDULER_ENABLED" then
    issueIf cursorFile.isNone "MACHINE_POWER_SCHEDULER_CURSOR_FILE"
      "is required when the machine-power scheduler is enabled" ++
    issueIf claimFile.isNone "MACHINE_SHUTDOWN_OCCURRENCE_CLAIM_FILE"
      "is required when the machine-power scheduler is enabled" ++
    issueIf ((valueOf record "ADMINISTRATIVE_EVENT_HISTORY_FILE").isNone &&
        (valueOf record "ADMINISTRATIVE_EVENT_HISTORY_DIRECTORY").isNone)
      "ADMINISTRATIVE_EVENT_HISTORY_DIRECTORY"
      "is required when the machine-power scheduler is enabled"
  else []

/-- The catalog of the targets a record names, `none` where it throws. -/
def backupTargets? (parsers : Parsers) (record : Record) : Option (List BackupTarget) :=
  parsers.createBackupTargetCatalogFromEnvironment
    ((valueOf record "REGISTERED_BACKUP_TARGETS_JSON").getD "[]")

def isScheduled (target : BackupTarget) : Bool :=
  match target.schedule with
  | .scheduled _ => true
  | _ => false

def backupIssues (parsers : Parsers) (record : Record) : List Issue :=
  let required := fun (name message : String) => issueIf (valueOf record name).isNone name message
  (if enabled record "ADMINISTRATIVE_BACKUP_HTTP_ENABLED" then
    required "BACKUP_RUN_HISTORY_FILE" "is required when backup administration is enabled"
  else []) ++
  (if enabled record "BACKUP_SCHEDULER_ENABLED" then
    ["BACKUP_RUN_HISTORY_FILE", "BACKUP_SCHEDULER_CURSOR_FILE",
      "BACKUP_OCCURRENCE_CLAIM_FILE"].flatMap
      (required · "is required when backup scheduling is enabled") ++
    issueIf ((backupTargets? parsers record).any fun targets => !targets.any isScheduled)
      "REGISTERED_BACKUP_TARGETS_JSON" "must include a scheduled backup target"
  else []) ++
  issueIf (enabled record "ADMINISTRATIVE_BACKUP_HTTP_ENABLED" &&
      (backupTargets? parsers record).isNone) "REGISTERED_BACKUP_TARGETS_JSON"
    "must be a valid backup target catalog"

/-- The rules of `environmentSchema` over the whole environment. -/
def environmentIssues (parsers : Parsers) (record : Record) : List Issue :=
  accessIssues record ++ servicePathIssues record ++ powerEffectsIssues record ++
    administrationIssues parsers record ++ configuredPathIssues record ++
    eventHistoryIssues parsers record ++ machinePathIssues record ++ backupIssues parsers record

/-! ## The configuration -/

/-- The paths of the stores.  `EnvironmentConfig` holds more than these. -/
structure EnvironmentConfig where
  machineOperatingPolicyFilePath : Option String
  serviceAvailabilityReconciliationSchedulerCursorFilePath : Option String
  serviceAvailabilityReconciliationOccurrenceClaimFilePath : Option String
  serviceAvailabilityOverrideFilePath : Option String
  serviceAvailabilityPolicyFilePath : Option String
  backupRunHistoryFilePath : Option String
  backupSchedulerCursorFilePath : Option String
  backupOccurrenceClaimFilePath : Option String
  administrativeEventHistoryFilePath : Option String
  administrativeEventHistoryDirectoryPath : Option String
  machineShutdownOccurrenceClaimFilePath : Option String
  machinePowerSchedulerCursorFilePath : Option String
  deriving DecidableEq, Repr

inductive EnvironmentError
  | zodError (issues : List Issue)
  /-- A value that no rule looked at was not what it has to be. -/
  | thrown
  deriving DecidableEq, Repr

/-- Backup paths are handed on when one of these variables is there. -/
def backupConfigurationProvided (record : Record) : Bool :=
  ["BACKUP_SCHEDULER_ENABLED", "REGISTERED_BACKUP_TARGETS_JSON",
    "ADMINISTRATIVE_BACKUP_HTTP_ENABLED", "BACKUP_RUN_HISTORY_FILE"].any (hasOwnVariable record)

/-- The paths of a record that passed the rules. -/
def configOf (record : Record) : EnvironmentConfig :=
  let backup := fun name =>
    if backupConfigurationProvided record then valueOf record name else none
  { machineOperatingPolicyFilePath := valueOf record "MACHINE_OPERATING_POLICY_FILE"
    serviceAvailabilityReconciliationSchedulerCursorFilePath :=
      valueOf record "SERVICE_AVAILABILITY_RECONCILIATION_SCHEDULER_CURSOR_FILE"
    serviceAvailabilityReconciliationOccurrenceClaimFilePath :=
      valueOf record "SERVICE_AVAILABILITY_RECONCILIATION_OCCURRENCE_CLAIM_FILE"
    serviceAvailabilityOverrideFilePath := valueOf record "SERVICE_AVAILABILITY_OVERRIDE_FILE"
    serviceAvailabilityPolicyFilePath := valueOf record "SERVICE_AVAILABILITY_POLICY_FILE"
    backupRunHistoryFilePath := backup "BACKUP_RUN_HISTORY_FILE"
    backupSchedulerCursorFilePath := backup "BACKUP_SCHEDULER_CURSOR_FILE"
    backupOccurrenceClaimFilePath := backup "BACKUP_OCCURRENCE_CLAIM_FILE"
    administrativeEventHistoryFilePath := valueOf record "ADMINISTRATIVE_EVENT_HISTORY_FILE"
    administrativeEventHistoryDirectoryPath :=
      valueOf record "ADMINISTRATIVE_EVENT_HISTORY_DIRECTORY"
    machineShutdownOccurrenceClaimFilePath :=
      valueOf record "MACHINE_SHUTDOWN_OCCURRENCE_CLAIM_FILE"
    machinePowerSchedulerCursorFilePath :=
      valueOf record "MACHINE_POWER_SCHEDULER_CURSOR_FILE" }

def parseEnvironment (parsers : Parsers) (record : Record) :
    Except EnvironmentError EnvironmentConfig :=
  let own := environmentObjectSchema parsers record
  let issues := if own.all (·.continues) then own ++ environmentIssues parsers record else own
  if issues ≠ [] then .error (.zodError issues)
  else if (backupTargets? parsers record).isNone then .error .thrown
  else if (valueOf record "ADMINISTRATIVE_EVENT_HISTORY_RETENTION_POLICY").any
      (fun value => !parsers.parseStrictJson value) then
    .error .thrown
  else .ok (configOf record)

/-! ## What the rules keep apart -/

/-- Two variables do not have the same value. -/
def Differ (record : Record) (a b : String) : Prop :=
  ∀ path, valueOf record a = some path → valueOf record b ≠ some path

theorem Differ.symm {record : Record} {a b : String} (h : Differ record a b) :
    Differ record b a := fun path hb ha => h path ha hb

@[simp] theorem issueIf_eq_nil {condition : Bool} {path message : String} :
    issueIf condition path message = [] ↔ condition = false := by
  cases condition <;> simp [issueIf]

@[simp] theorem when_eq_nil {condition : Bool} {message : String} :
    when condition message = [] ↔ condition = false := by
  cases condition <;> simp [when]

theorem optionalVariable_eq_nil {record : Record} {schema : String → List String}
    {name value : String} (h : optionalVariable record schema name = [])
    (hvalue : valueOf record name = some value) : schema value = [] := by
  unfold optionalVariable at h
  rw [hvalue] at h
  exact List.map_eq_nil_iff.mp h

/-- Either kind of path, once its own rule is content, is one the other rules compare. -/
theorem isValid_of_persistenceFilePathSchema {value : String}
    (h : persistenceFilePathSchema value = []) : isValidPersistenceFilePath value = true := by
  unfold persistenceFilePathSchema at h
  unfold isValidPersistenceFilePath
  split_ifs at h with hempty htrim habsolute
  rw [Bool.not_eq_true, Bool.not_eq_false'] at habsolute
  have hpos : value.length > 0 := Nat.pos_of_ne_zero hempty
  simp [not_not.mp htrim, hpos, habsolute]

theorem isValid_of_administrativeEventHistoryFileSchema {value : String}
    (h : administrativeEventHistoryFileSchema value = []) :
    isValidPersistenceFilePath value = true := by
  unfold administrativeEventHistoryFileSchema at h
  unfold isValidPersistenceFilePath
  split_ifs at h with hempty
  simp only [List.append_eq_nil_iff, when_eq_nil, decide_eq_false_iff_not, not_not,
    Bool.not_eq_false'] at h
  have hpos : value.length > 0 := Nat.pos_of_ne_zero hempty
  simp [h, hpos]

/-- **The rule on two variables**: with a valid path and no complaint, they differ. -/
theorem differ_of_mustDifferIssues {record : Record} {a b message : String}
    (hvalid : ∀ path, valueOf record a = some path → isValidPersistenceFilePath path = true)
    (h : mustDifferIssues record a b message = []) : Differ record a b := by
  intro path ha hb
  unfold mustDifferIssues at h
  rw [ha] at h
  simp [hvalid path ha, hb] at h

/-- Distinct values of a list of variables are pairwise different variables. -/
theorem nodup_filterMap_iff {record : Record} {names : List String} :
    (names.filterMap (valueOf record)).Nodup ↔ names.Pairwise (Differ record) := by
  rw [List.Nodup, List.pairwise_filterMap]
  refine List.Pairwise.iff fun {a b} => ?_
  constructor
  · intro hne path ha hb
    exact hne path ha path hb rfl
  · intro hdiffer x ha y hb heq
    rw [← heq] at hb
    exact hdiffer x ha hb

/-- An accepted record: every rule is content. -/
structure Accepted (parsers : Parsers) (record : Record) : Prop where
  own : environmentObjectSchema parsers record = []
  rules : environmentIssues parsers record = []

theorem accepted_of_parseEnvironment {parsers : Parsers} {record : Record}
    {config : EnvironmentConfig} (h : parseEnvironment parsers record = .ok config) :
    Accepted parsers record ∧ config = configOf record := by
  unfold parseEnvironment at h
  simp only at h
  by_cases hown : environmentObjectSchema parsers record = []
  · rw [hown] at h
    simp only [List.all_nil, if_true, List.nil_append] at h
    by_cases hrules : environmentIssues parsers record = []
    · rw [hrules] at h
      simp only [ne_eq, not_true_eq_false, if_false] at h
      split_ifs at h
      exact ⟨⟨hown, hrules⟩, (Except.ok.inj h).symm⟩
    · rw [if_pos hrules] at h
      cases h
  · exfalso
    by_cases hall : (environmentObjectSchema parsers record).all (·.continues)
    · rw [if_pos hall, if_pos (by simp [hown])] at h
      cases h
    · rw [if_neg hall, if_pos hown] at h
      cases h

namespace Accepted

variable {parsers : Parsers} {record : Record}

theorem validPath (h : Accepted parsers record) {name : String}
    (hname : name ∈ persistencePathNames ++ eventHistoryPathNames) {path : String}
    (hpath : valueOf record name = some path) : isValidPersistenceFilePath path = true := by
  have hown := h.own
  simp only [environmentObjectSchema, List.append_eq_nil_iff, List.flatMap_eq_nil_iff] at hown
  rcases List.mem_append.mp hname with hmem | hmem
  · exact isValid_of_persistenceFilePathSchema
      (optionalVariable_eq_nil (hown.1.1.1.1.1.1.2 name hmem) hpath)
  · exact isValid_of_administrativeEventHistoryFileSchema
      (optionalVariable_eq_nil (hown.1.1.1.1.1.2 name hmem) hpath)

/-- The files of the service stores differ. -/
theorem servicePaths (h : Accepted parsers record) :
    ["SERVICE_AVAILABILITY_RECONCILIATION_SCHEDULER_CURSOR_FILE",
      "SERVICE_AVAILABILITY_RECONCILIATION_OCCURRENCE_CLAIM_FILE",
      "SERVICE_AVAILABILITY_OVERRIDE_FILE",
      "SERVICE_AVAILABILITY_POLICY_FILE"].Pairwise (Differ record) := by
  have hrules := h.rules
  simp only [environmentIssues, servicePathIssues, List.append_eq_nil_iff] at hrules
  obtain ⟨⟨⟨⟨⟨hclaimCursor, hoverrideCursor⟩, hpolicyCursor⟩, hpolicyClaim⟩, hpolicyOverride⟩,
    hoverrideClaim⟩ := hrules.1.1.1.1.1.1.2
  have hdiffer : ∀ {a b message : String}, a ∈ persistencePathNames →
      mustDifferIssues record a b message = [] → Differ record b a := fun hname hissues =>
    (differ_of_mustDifferIssues
      (fun path => h.validPath (List.mem_append_left _ hname)) hissues).symm
  simp only [List.pairwise_cons, List.mem_cons, List.not_mem_nil, or_false, forall_eq_or_imp,
    forall_eq, List.Pairwise.nil, and_true, false_imp_iff, implies_true]
  exact ⟨⟨hdiffer (by decide) hclaimCursor, hdiffer (by decide) hoverrideCursor,
      hdiffer (by decide) hpolicyCursor⟩,
    ⟨hdiffer (by decide) hoverrideClaim, hdiffer (by decide) hpolicyClaim⟩,
    hdiffer (by decide) hpolicyOverride⟩

/-- The files of the machine stores differ from one another. -/
theorem machinePaths (h : Accepted parsers record) :
    ["MACHINE_SHUTDOWN_OCCURRENCE_CLAIM_FILE", "MACHINE_POWER_SCHEDULER_CURSOR_FILE",
      "MACHINE_OPERATING_POLICY_FILE"].Pairwise (Differ record) := by
  have hrules := h.rules
  simp only [environmentIssues, machinePathIssues, List.append_eq_nil_iff] at hrules
  obtain ⟨⟨⟨⟨⟨_, hpolicy⟩, _⟩, _⟩, hclaim⟩, _⟩ := hrules.1.2
  have hclaimCursor := differ_of_mustDifferIssues
    (fun path => h.validPath (List.mem_append_right _ (by decide))) hclaim
  have hpolicyOthers : ∀ path, valueOf record "MACHINE_OPERATING_POLICY_FILE" = some path →
      valueOf record "MACHINE_SHUTDOWN_OCCURRENCE_CLAIM_FILE" ≠ some path ∧
      valueOf record "MACHINE_POWER_SCHEDULER_CURSOR_FILE" ≠ some path := by
    intro path hpath
    have hvalid := h.validPath (List.mem_append_left _ (by decide)) hpath
    rw [hpath] at hpolicy
    simpa [hvalid] using hpolicy
  have hpolicyClaim : Differ record "MACHINE_OPERATING_POLICY_FILE"
      "MACHINE_SHUTDOWN_OCCURRENCE_CLAIM_FILE" := fun path hpath => (hpolicyOthers path hpath).1
  have hpolicyCursor : Differ record "MACHINE_OPERATING_POLICY_FILE"
      "MACHINE_POWER_SCHEDULER_CURSOR_FILE" := fun path hpath => (hpolicyOthers path hpath).2
  simp only [List.pairwise_cons, List.mem_cons, List.not_mem_nil, or_false, forall_eq_or_imp,
    forall_eq, List.Pairwise.nil, and_true, false_imp_iff, implies_true]
  exact ⟨⟨hclaimCursor, hpolicyClaim.symm⟩, hpolicyCursor.symm⟩

/-- No file of a service store is one of a machine store. -/
theorem service_machine_differ (h : Accepted parsers record) {a b : String}
    (ha : a ∈ ["SERVICE_AVAILABILITY_RECONCILIATION_SCHEDULER_CURSOR_FILE",
      "SERVICE_AVAILABILITY_RECONCILIATION_OCCURRENCE_CLAIM_FILE",
      "SERVICE_AVAILABILITY_OVERRIDE_FILE", "SERVICE_AVAILABILITY_POLICY_FILE"])
    (hb : b ∈ ["MACHINE_SHUTDOWN_OCCURRENCE_CLAIM_FILE", "MACHINE_POWER_SCHEDULER_CURSOR_FILE",
      "MACHINE_OPERATING_POLICY_FILE"]) : Differ record a b := by
  have hrules := h.rules
  simp only [environmentIssues, machinePathIssues, List.append_eq_nil_iff,
    List.flatMap_eq_nil_iff, issueIf_eq_nil] at hrules
  intro path hpath hother
  have hnot := hrules.1.2.1.1.1.1.1 b hb
  rw [hother, Option.any_some, ← Bool.not_eq_true, List.contains_iff_mem] at hnot
  exact hnot (List.mem_filterMap.mpr ⟨a, ha, hpath⟩)

/-- With an event history file the widest rule is asked. -/
theorem configuredPaths_nodup (h : Accepted parsers record)
    (hfile : (valueOf record "ADMINISTRATIVE_EVENT_HISTORY_FILE").isSome = true) :
    (configuredPaths record).Nodup := by
  have hrules := h.rules
  simp only [environmentIssues, configuredPathIssues, List.append_eq_nil_iff,
    issueIf_eq_nil, hfile, Bool.true_and, decide_eq_false_iff_not, ne_eq, not_not] at hrules
  exact nodup_of_length_distinct hrules.1.1.1.2

end Accepted

/-! ## The files of the stores -/

namespace EnvironmentConfig

/-- The files of the stores that are configured. -/
def persistenceFilePaths (config : EnvironmentConfig) : List String :=
  [config.serviceAvailabilityReconciliationSchedulerCursorFilePath,
    config.serviceAvailabilityReconciliationOccurrenceClaimFilePath,
    config.serviceAvailabilityOverrideFilePath, config.serviceAvailabilityPolicyFilePath,
    config.administrativeEventHistoryFilePath, config.machineShutdownOccurrenceClaimFilePath,
    config.machinePowerSchedulerCursorFilePath, config.machineOperatingPolicyFilePath,
    config.backupRunHistoryFilePath, config.backupSchedulerCursorFilePath,
    config.backupOccurrenceClaimFilePath].filterMap id

end EnvironmentConfig

/-- The variables of the service and machine stores. -/
def serviceAndMachineNames : List String :=
  ["SERVICE_AVAILABILITY_RECONCILIATION_SCHEDULER_CURSOR_FILE",
    "SERVICE_AVAILABILITY_RECONCILIATION_OCCURRENCE_CLAIM_FILE",
    "SERVICE_AVAILABILITY_OVERRIDE_FILE", "SERVICE_AVAILABILITY_POLICY_FILE"] ++
  ["MACHINE_SHUTDOWN_OCCURRENCE_CLAIM_FILE", "MACHINE_POWER_SCHEDULER_CURSOR_FILE",
    "MACHINE_OPERATING_POLICY_FILE"]

def backupNames : List String :=
  ["BACKUP_RUN_HISTORY_FILE", "BACKUP_SCHEDULER_CURSOR_FILE", "BACKUP_OCCURRENCE_CLAIM_FILE"]

/-- The backup stores have files of their own: the paths of the backup variables differ
from one another and from those of the service and machine variables. -/
def BackupFilesApart (record : Record) : Prop :=
  (backupNames.filterMap (valueOf record)).Nodup ∧
  ∀ path ∈ backupNames.filterMap (valueOf record),
    path ∉ serviceAndMachineNames.filterMap (valueOf record)

instance (record : Record) : Decidable (BackupFilesApart record) :=
  inferInstanceAs (Decidable (_ ∧ _))

theorem Accepted.serviceAndMachinePaths {parsers : Parsers} {record : Record}
    (h : Accepted parsers record) :
    (serviceAndMachineNames.filterMap (valueOf record)).Nodup := by
  rw [nodup_filterMap_iff, serviceAndMachineNames, List.pairwise_append]
  exact ⟨h.servicePaths, h.machinePaths, fun a ha b hb => h.service_machine_differ ha hb⟩

/-- The files without the backup stores: in the order of the variables, the event history
stands between the service and the machine stores. -/
theorem persistenceFilePaths_configOf (record : Record) :
    (configOf record).persistenceFilePaths =
      (serviceAndMachineNames.take 4 ++ ["ADMINISTRATIVE_EVENT_HISTORY_FILE"] ++
        serviceAndMachineNames.drop 4 ++
        if backupConfigurationProvided record then backupNames else []).filterMap
        (valueOf record) := by
  have hmap : ∀ names : List String,
      (names.map (valueOf record)).filterMap id = names.filterMap (valueOf record) := by
    intro names
    rw [List.filterMap_map]
    rfl
  rw [← hmap]
  by_cases hprovided : backupConfigurationProvided record
  · rw [if_pos hprovided]
    simp only [EnvironmentConfig.persistenceFilePaths, configOf, if_pos hprovided]
    rfl
  · rw [if_neg hprovided]
    have hnone : (configOf record).persistenceFilePaths =
        ((serviceAndMachineNames.take 4 ++ ["ADMINISTRATIVE_EVENT_HISTORY_FILE"] ++
          serviceAndMachineNames.drop 4 ++ []).map (valueOf record) ++
            [none, none, none]).filterMap id := by
      simp only [EnvironmentConfig.persistenceFilePaths, configOf, if_neg hprovided]
      rfl
    rw [hnone, List.filterMap_append]
    exact List.append_nil _

/-- **Files of the stores**: they are pairwise distinct when an event history file is
configured; without one, when no backup configuration is given or the backup stores have
files of their own. -/
theorem persistenceFilePaths_nodup_iff (parsers : Parsers) (record : Record)
    (config : EnvironmentConfig) (h : parseEnvironment parsers record = .ok config) :
    config.persistenceFilePaths.Nodup ↔
      (valueOf record "ADMINISTRATIVE_EVENT_HISTORY_FILE").isSome = true ∨
      backupConfigurationProvided record = false ∨ BackupFilesApart record := by
  obtain ⟨haccepted, rfl⟩ := accepted_of_parseEnvironment h
  rw [persistenceFilePaths_configOf]
  cases hfile : valueOf record "ADMINISTRATIVE_EVENT_HISTORY_FILE" with
  | some file =>
      refine iff_of_true ?_ (Or.inl rfl)
      refine (haccepted.configuredPaths_nodup (by rw [hfile]; rfl)).sublist ?_
      refine List.Sublist.filterMap _ ?_
      split_ifs <;> decide
  | none =>
      have hdrop : ∀ rest : List String,
          (serviceAndMachineNames.take 4 ++ ["ADMINISTRATIVE_EVENT_HISTORY_FILE"] ++
            serviceAndMachineNames.drop 4 ++ rest).filterMap (valueOf record) =
          serviceAndMachineNames.filterMap (valueOf record) ++
            rest.filterMap (valueOf record) := by
        intro rest
        simp only [List.filterMap_append, List.filterMap_cons, List.filterMap_nil, hfile,
          List.append_nil]
        rw [← List.filterMap_append, List.take_append_drop]
      rw [hdrop]
      have hnodup := haccepted.serviceAndMachinePaths
      by_cases hprovided : backupConfigurationProvided record
      · rw [if_pos hprovided, List.nodup_append]
        simp only [hprovided, Option.isSome_none, Bool.false_eq_true, false_or, BackupFilesApart]
        constructor
        · rintro ⟨_, hbackup, hapart⟩
          exact Or.inr ⟨hbackup, fun path hpath hother => hapart path hother path hpath rfl⟩
        · intro hcases
          obtain ⟨hbackup, hapart⟩ := hcases.resolve_left (by simp)
          refine ⟨hnodup, hbackup, fun a ha b hb heq => ?_⟩
          rw [heq] at ha
          exact hapart b hb ha
      · rw [if_neg hprovided, List.filterMap_nil, List.append_nil]
        exact iff_of_true hnodup (Or.inr (Or.inl (by simpa using hprovided)))

/-- Parsers that take what is asked of them for the records below. -/
def lenient : Parsers where
  number _ := some 3000
  parseStrictJson _ := true
  machineOperatingPolicy _ := []
  parseAdministrativePublicOrigin _ := true
  parseAdministrativeServiceTokenPrincipals _ := true
  parseAdministrativeRoleAssignments _ := some [[.administrator]]
  createBackupTargetCatalogFromEnvironment _ := some []
  createRetentionPolicy _ := true

theorem persistenceFilePaths_nodup_iff_backup :
    (configOf [("BACKUP_RUN_HISTORY_FILE", some "/runs"),
      ("BACKUP_SCHEDULER_CURSOR_FILE", some "/cursor")]).persistenceFilePaths.Nodup :=
  (persistenceFilePaths_nodup_iff lenient
    [("BACKUP_RUN_HISTORY_FILE", some "/runs"), ("BACKUP_SCHEDULER_CURSOR_FILE", some "/cursor")]
    _ (by decide +kernel)).mpr (Or.inr (Or.inr (by decide +kernel)))

/-- Two backup stores in one file. -/
theorem persistenceFilePaths_not_nodup :
    ¬ ∀ (parsers : Parsers) (record : Record) (config : EnvironmentConfig),
      parseEnvironment parsers record = .ok config → config.persistenceFilePaths.Nodup := by
  intro hall
  have hnodup := hall lenient
    [("BACKUP_RUN_HISTORY_FILE", some "/x"), ("BACKUP_SCHEDULER_CURSOR_FILE", some "/x")]
    (configOf [("BACKUP_RUN_HISTORY_FILE", some "/x"),
      ("BACKUP_SCHEDULER_CURSOR_FILE", some "/x")]) (by decide +kernel)
  exact absurd hnodup (by decide +kernel)

end AtlasManager.Config
