import AtlasManager.Power.ReadinessDecision

/-!
# AtlasManager.Power.PreparationRecords

The records of a shutdown preparation: its plan, the results of its steps, the
events it records, and the report.  Their checks throw errors without a code,
so they answer with an `Option`.

* `createMachineShutdownPreparationPlan` -- the steps a decision calls for;
* `createMachineShutdownPreparationPlan_ok` -- the plan drawn up for a decision
  passes the check of plans;
* `createMachineShutdownPreparationReport` -- what a report must agree on.
-/

namespace AtlasManager.Power

open AtlasManager.Lib AtlasManager.Service

/-! ## Plans -/

inductive MachineShutdownPreparationStep where
  | recordPreparationStarted
  | stopRegisteredServices
  | drainActiveTasks
  | completeBackup
  | synchronizeFilesystem
  | recordPreparationCompleted
  | reevaluateReadiness
  | recordFinalReadiness
  deriving DecidableEq, Repr

namespace MachineShutdownPreparationStep

def steps : List MachineShutdownPreparationStep :=
  [recordPreparationStarted, stopRegisteredServices, drainActiveTasks, completeBackup,
    synchronizeFilesystem, recordPreparationCompleted, reevaluateReadiness, recordFinalReadiness]

def text : MachineShutdownPreparationStep → String
  | recordPreparationStarted => "record_preparation_started"
  | stopRegisteredServices => "stop_registered_services"
  | drainActiveTasks => "drain_active_tasks"
  | completeBackup => "complete_backup"
  | synchronizeFilesystem => "synchronize_filesystem"
  | recordPreparationCompleted => "record_preparation_completed"
  | reevaluateReadiness => "reevaluate_readiness"
  | recordFinalReadiness => "record_final_readiness"

/-- The steps that only record progress. -/
def isRecord : MachineShutdownPreparationStep → Bool
  | recordPreparationStarted | recordPreparationCompleted | reevaluateReadiness
  | recordFinalReadiness => true
  | _ => false

end MachineShutdownPreparationStep

structure MachineShutdownPreparationPlan where
  occurrence : MachineShutdownOccurrence
  plannedAt : Timestamp
  initialDecision : MachineShutdownReadinessDecision
  steps : List MachineShutdownPreparationStep
  deriving DecidableEq

inductive MachineShutdownPreparationPlanErrorCode where
  | invalidPlan
  | invalidStep
  deriving DecidableEq, Repr

def isPreparableBlocker (blocker : MachineShutdownReadinessBlocker) : Bool :=
  match blocker.code with
  | .serviceRunning => blocker.serviceId.isSome
  | .activeTasksPresent | .backupInProgress | .filesystemSyncRequired => true
  | _ => false

/-- The steps that blockers call for, with the recording around them.  The plan's
check and the planner compute them in the same way. -/
def stepsFor (blockers : List MachineShutdownReadinessBlocker) :
    List MachineShutdownPreparationStep :=
  let has (code : MachineShutdownBlockerCode) := blockers.any (·.code = code)
  open MachineShutdownPreparationStep in
  [recordPreparationStarted] ++
    (if has .serviceRunning then [stopRegisteredServices] else []) ++
    (if has .activeTasksPresent then [drainActiveTasks] else []) ++
    (if has .backupInProgress then [completeBackup] else []) ++
    (if has .filesystemSyncRequired then [synchronizeFilesystem] else []) ++
    [recordPreparationCompleted, reevaluateReadiness, recordFinalReadiness]

def expectedSteps (decision : MachineShutdownReadinessDecision) :
    Option (List MachineShutdownPreparationStep) :=
  if decision.outcome = .approved then some []
  else if decision.blockers.any fun blocker => !isPreparableBlocker blocker then none
  else some (stepsFor decision.blockers)

/-- The check of a plan, over fields that have been read. -/
def createPlanModel (occurrence : MachineShutdownOccurrence) (plannedAt : Timestamp)
    (initialDecision : MachineShutdownReadinessDecision)
    (steps : List MachineShutdownPreparationStep) :
    Except MachineShutdownPreparationPlanErrorCode MachineShutdownPreparationPlan :=
  if initialDecision.occurrence ≠ occurrence ∨ initialDecision.evaluatedAt ≠ plannedAt ∨
      ¬ steps.Nodup ∨ expectedSteps initialDecision ≠ some steps then
    .error .invalidStep
  else .ok { occurrence, plannedAt, initialDecision, steps }

inductive MachineShutdownPreparationPlanningResult where
  | planned (plan : MachineShutdownPreparationPlan)
  | blocked (decision : MachineShutdownReadinessDecision)

/-- The blockers a preparation can remove. -/
def preparable : List MachineShutdownBlockerCode :=
  [.serviceRunning, .activeTasksPresent, .backupInProgress, .filesystemSyncRequired]

/-- The plan of a preparation, or the decision that a preparation cannot change. -/
def createMachineShutdownPreparationPlan (occurrence : MachineShutdownOccurrence)
    (processedAt : Timestamp) (initialDecision : MachineShutdownReadinessDecision) :
    Except MachineShutdownPreparationPlanErrorCode MachineShutdownPreparationPlanningResult := do
  if initialDecision.outcome = .approved then
    return .planned (← createPlanModel occurrence processedAt initialDecision [])
  if initialDecision.blockers.any fun blocker =>
      blocker.code ∉ preparable ∨
        blocker.code = .serviceRunning ∧ blocker.serviceId.getD "" = "" then
    return .blocked initialDecision
  return .planned
    (← createPlanModel occurrence processedAt initialDecision (stepsFor initialDecision.blockers))

/-- A decision to approve needs no step. -/
theorem planPreparation_approved {occurrence : MachineShutdownOccurrence}
    {processedAt : Timestamp} {decision : MachineShutdownReadinessDecision}
    (hoccurrence : decision.occurrence = occurrence)
    (hevaluated : decision.evaluatedAt = processedAt) (happroved : decision.outcome = .approved) :
    createMachineShutdownPreparationPlan occurrence processedAt decision =
      .ok (.planned ⟨occurrence, processedAt, decision, []⟩) := by
  simp only [createMachineShutdownPreparationPlan, createPlanModel, happroved, hoccurrence,
    hevaluated, expectedSteps, if_true, ne_eq, not_true_eq_false, List.nodup_nil, or_self, if_false]
  rfl

theorem stepsFor_sublist (blockers : List MachineShutdownReadinessBlocker) :
    (stepsFor blockers).Sublist MachineShutdownPreparationStep.steps := by
  have hite : ∀ (c : Bool) (step : MachineShutdownPreparationStep),
      (if c then [step] else []).Sublist [step] := by
    intro c step
    cases c <;> simp
  exact ((((List.Sublist.refl _).append (hite _ _)).append (hite _ _)).append (hite _ _)).append
    (hite _ _) |>.append (List.Sublist.refl _)

theorem stepsFor_nodup (blockers : List MachineShutdownReadinessBlocker) :
    (stepsFor blockers).Nodup :=
  (stepsFor_sublist blockers).nodup (by decide)

theorem isPreparableBlocker_iff {blocker : MachineShutdownReadinessBlocker} :
    isPreparableBlocker blocker = true ↔ blocker.code ∈ preparable ∧
      (blocker.code = .serviceRunning → blocker.serviceId.isSome = true) := by
  unfold isPreparableBlocker
  split <;> simp_all [preparable]

/-- The plan that is drawn up for a decision passes the check of plans. -/
theorem createMachineShutdownPreparationPlan_ok {occurrence : MachineShutdownOccurrence}
    {processedAt : Timestamp} {decision : MachineShutdownReadinessDecision}
    (hoccurrence : decision.occurrence = occurrence)
    (hevaluated : decision.evaluatedAt = processedAt) :
    ∃ planning, createMachineShutdownPreparationPlan occurrence processedAt decision =
      .ok planning := by
  by_cases happroved : decision.outcome = .approved
  · exact ⟨_, planPreparation_approved hoccurrence hevaluated happroved⟩
  simp only [createMachineShutdownPreparationPlan, happroved, if_false]
  split
  · exact ⟨_, rfl⟩
  · next hblockers =>
      have hpreparable : decision.blockers.any (fun blocker => !isPreparableBlocker blocker) =
          false := by
        rw [List.any_eq_false]
        intro blocker hmem hnot
        have hblocker : ¬ (blocker.code ∉ preparable ∨
            blocker.code = .serviceRunning ∧ blocker.serviceId.getD "" = "") := fun h =>
          hblockers (List.any_eq_true.mpr ⟨blocker, hmem, decide_eq_true h⟩)
        rw [not_or, not_not, not_and] at hblocker
        rw [Bool.not_eq_true', Bool.eq_false_iff, ne_eq, isPreparableBlocker_iff] at hnot
        refine hnot ⟨hblocker.1, fun hcode => ?_⟩
        cases hid : blocker.serviceId with
        | none => exact absurd (by rw [hid]; rfl) (hblocker.2 hcode)
        | some id => rfl
      have hexpected : expectedSteps decision = some (stepsFor decision.blockers) := by
        simp only [expectedSteps, happroved, hpreparable, Bool.false_eq_true, if_false]
      have hplan : createPlanModel occurrence processedAt decision (stepsFor decision.blockers) =
          .ok ⟨occurrence, processedAt, decision, stepsFor decision.blockers⟩ := by
        simp [createPlanModel, hoccurrence, hevaluated, hexpected, stepsFor_nodup]
      rw [hplan]
      exact ⟨_, rfl⟩

/-! ## Results of stopping services -/

/-- `outcome` and `failureCode` are kept as they came. -/
structure MachineShutdownServicePreparationStep where
  serviceId : String
  outcome : JsValue
  failureCode : Option JsValue

def serviceFailureCodes : List String :=
  ["service_status_failed", "service_stop_not_supported", "service_stop_failed",
    "service_plan_invalid"]

/-- Is a value the text `failed`? -/
def isFailed : JsValue → Bool
  | .str text => text = "failed"
  | _ => false

def createServicePreparationStep (value : JsValue) :
    Option MachineShutdownServicePreparationStep := do
  let fields ← value.asRecord
  let serviceId ← serviceIdOf (field fields "serviceId")
  let outcome := field fields "outcome"
  guard (["stopped", "already_stopped", "failed"].any outcome.coercesTo)
  guard !hasFieldOutside ["serviceId", "outcome", "failureCode"] fields
  let failureCode := field fields "failureCode"
  if isFailed outcome then
    guard (serviceFailureCodes.any failureCode.coercesTo)
    return { serviceId, outcome, failureCode := some failureCode }
  else
    guard !hasOwn fields "failureCode"
    return { serviceId, outcome, failureCode := none }

structure MachineShutdownServicePreparationResult where
  requestedAt : Timestamp
  steps : List MachineShutdownServicePreparationStep
  successful : Bool

def createMachineShutdownServicePreparationResult (requestedAt : Timestamp) (steps : JsValue)
    (successful : Bool) : Option MachineShutdownServicePreparationResult := do
  let .arr items := steps | none
  let steps ← items.mapM createServicePreparationStep
  guard (1 ≤ steps.length ∧ steps.length ≤ 64 ∧ (steps.map (·.serviceId)).Nodup)
  let hasFailure := steps.any fun step => isFailed step.outcome
  guard (successful ≠ hasFailure)
  guard (!hasFailure || (steps.getLast?.any fun step => isFailed step.outcome))
  return { requestedAt, steps, successful }

/-! ## Results of steps -/

inductive MachineShutdownPreparationStepOutcome where
  | completed
  | skipped
  | blocked
  | failed
  deriving DecidableEq, Repr

inductive MachineShutdownPreparationStepDetail where
  | services (serviceSteps : List MachineShutdownServicePreparationStep)
      (failureCode : Option String)
  | outcome (outcome : JsValue)
  | failure (failureCode : String) (remainingTaskCount : Option Int)

structure MachineShutdownPreparationStepResult where
  kind : MachineShutdownPreparationStep
  startedAt : Timestamp
  completedAt : Timestamp
  outcome : MachineShutdownPreparationStepOutcome
  detail : Option MachineShutdownPreparationStepDetail

def isFailureCodeAllowed (kind : MachineShutdownPreparationStep)
    (outcome : MachineShutdownPreparationStepOutcome) (value : String) : Bool :=
  let allowed (blocked : List String) :=
    if outcome = .blocked then value ∈ blocked else value = "preparation_dependency_failed"
  match kind with
  | .drainActiveTasks => allowed ["active_tasks_present"]
  | .completeBackup => allowed ["backup_completion_failed", "backup_completion_unknown"]
  | .synchronizeFilesystem =>
    allowed ["filesystem_synchronization_failed", "filesystem_synchronization_unknown"]
  | _ => false

/-- The instant that `validateDetail` puts on the service steps it checks. -/
def detailRequestedAt : Timestamp := ⟨1767225600000, by decide⟩

/-- The outcomes that a step accepts when it is done.  Draining compares texts, the
other two `String` of the value, as `[…].includes` does. -/
def isOutcomeAccepted : MachineShutdownPreparationStep → JsValue → Bool
  | .drainActiveTasks, .str outcome => outcome ∈ ["drained", "already_drained"]
  | .completeBackup, outcome => ["completed", "not_running"].any outcome.coercesTo
  | .synchronizeFilesystem, outcome =>
    ["synchronized", "already_synchronized"].any outcome.coercesTo
  | _, _ => false

/-- The one field of a record, when it is `outcome` and accepted. -/
def outcomeDetail (kind : MachineShutdownPreparationStep) (fields : List (String × JsValue)) :
    Option MachineShutdownPreparationStepDetail := do
  guard (fields.length = 1)
  let outcome := field fields "outcome"
  guard (isOutcomeAccepted kind outcome)
  return .outcome outcome

/-- The detail of a step that was blocked or failed. -/
def failureDetail (kind : MachineShutdownPreparationStep)
    (outcome : MachineShutdownPreparationStepOutcome) (fields : List (String × JsValue)) :
    Option MachineShutdownPreparationStepDetail := do
  guard (outcome = .blocked ∨ outcome = .failed)
  let .str failureCode := field fields "failureCode" | none
  guard !hasFieldOutside ["failureCode", "remainingTaskCount"] fields
  let counted := hasOwn fields "remainingTaskCount"
  let remainingTaskCount := taskCountOf (field fields "remainingTaskCount")
  guard (!counted || remainingTaskCount.isSome)
  guard (isFailureCodeAllowed kind outcome failureCode)
  guard (!(kind = .drainActiveTasks ∧ outcome = .blocked) || counted)
  guard (kind = .drainActiveTasks || !counted)
  return .failure failureCode (if counted then remainingTaskCount else none)

def validateDetail (kind : MachineShutdownPreparationStep)
    (outcome : MachineShutdownPreparationStepOutcome) (input : JsValue) :
    Option MachineShutdownPreparationStepDetail := do
  let fields ← input.asRecord
  match kind with
  | .stopRegisteredServices =>
    guard (hasOwn fields "serviceSteps")
    let result ← createMachineShutdownServicePreparationResult detailRequestedAt
      (field fields "serviceSteps") (outcome ≠ .failed)
    guard !hasFieldOutside ["serviceSteps", "failureCode"] fields
    if outcome = .failed then
      let .str failureCode := field fields "failureCode" | none
      guard (failureCode ∈ serviceFailureCodes)
      return .services result.steps (some failureCode)
    else
      guard !hasOwn fields "failureCode"
      return .services result.steps none
  | .drainActiveTasks | .completeBackup | .synchronizeFilesystem =>
    if outcome = .completed ∨ outcome = .skipped then outcomeDetail kind fields
    else failureDetail kind outcome fields
  | _ => failureDetail kind outcome fields

/-- A step that only records has no detail. -/
def createMachineShutdownPreparationStepResult (kind : MachineShutdownPreparationStep)
    (startedAt completedAt : Timestamp) (outcome : MachineShutdownPreparationStepOutcome)
    (detail : Option JsValue) : Option MachineShutdownPreparationStepResult := do
  match detail with
  | none => return { kind, startedAt, completedAt, outcome, detail := none }
  | some input =>
    let detail ← validateDetail kind outcome input
    guard !kind.isRecord
    return { kind, startedAt, completedAt, outcome, detail := some detail }

/-! ## Events -/

inductive MachineShutdownPreparationEventKind where
  | preparationStarted
  | servicesPrepared
  | activeTasksPrepared
  | backupPrepared
  | filesystemPrepared
  | preparationCompleted
  | preparationFailed
  | finalReadinessApproved
  | finalReadinessRejected
  deriving DecidableEq, Repr

structure MachineShutdownPreparationEvent where
  sequence : Nat
  kind : MachineShutdownPreparationEventKind
  occurrence : MachineShutdownOccurrence
  occurredAt : Timestamp
  detail : List (String × JsValue)

/-- The fields that go with a kind of event. -/
def detailByKind : MachineShutdownPreparationEventKind → List String
  | .servicesPrepared => ["stoppedCount", "alreadyStoppedCount"]
  | .activeTasksPrepared | .backupPrepared | .filesystemPrepared => ["outcome"]
  | .preparationFailed => ["failedStep", "failureCode"]
  | .finalReadinessRejected => ["blockerCodes"]
  | _ => []

def safeFailureCodes : List String :=
  ["active_tasks_present", "backup_completion_failed", "backup_completion_unknown",
    "event_recording_failed", "filesystem_synchronization_failed",
    "filesystem_synchronization_unknown", "preparation_dependency_failed",
    "service_preparation_failed", "service_status_failed", "service_stop_failed",
    "service_stop_not_supported", "service_plan_invalid"]

/-- Are the values of the fields as the kind of event wants them? -/
def isEventDetail (kind : MachineShutdownPreparationEventKind)
    (fields : List (String × JsValue)) : Bool :=
  let isCount (name : String) := (field fields name).integer?.any (0 ≤ ·)
  let isOutcome (accepted : List String) := accepted.any (field fields "outcome").coercesTo
  match kind with
  | .servicesPrepared => isCount "stoppedCount" && isCount "alreadyStoppedCount"
  | .activeTasksPrepared => isOutcome ["drained", "already_drained"]
  | .backupPrepared => isOutcome ["completed", "not_running"]
  | .filesystemPrepared => isOutcome ["synchronized", "already_synchronized"]
  | .preparationFailed =>
    match field fields "failedStep", field fields "failureCode" with
    | .str step, .str code =>
      step ∈ MachineShutdownPreparationStep.steps.map (·.text) ∧ code ∈ safeFailureCodes
    | _, _ => false
  | .finalReadinessRejected =>
    match field fields "blockerCodes" with
    | .arr codes =>
      1 ≤ codes.length ∧ codes.all fun code =>
        (oneOf MachineShutdownBlockerCode.codes MachineShutdownBlockerCode.text code).isSome
    | _ => false
  | _ => true

def createMachineShutdownPreparationEvent (sequence : Nat)
    (kind : MachineShutdownPreparationEventKind) (occurrence : MachineShutdownOccurrence)
    (occurredAt : Timestamp) (detail : List (String × JsValue)) :
    Option MachineShutdownPreparationEvent := do
  guard (1 ≤ sequence)
  guard !hasFieldOutside (detailByKind kind) detail
  guard (isEventDetail kind detail)
  return { sequence, kind, occurrence, occurredAt, detail }

/-! ## Reports -/

inductive MachineShutdownPreparationOutcome where
  | notRequired
  | blocked
  | prepared
  | incomplete
  deriving DecidableEq, Repr

structure MachineShutdownPreparationReport where
  occurrence : MachineShutdownOccurrence
  processedAt : Timestamp
  initialDecision : MachineShutdownReadinessDecision
  plan : Option MachineShutdownPreparationPlan
  steps : List MachineShutdownPreparationStepResult
  events : List MachineShutdownPreparationEvent
  finalDecision : Option MachineShutdownReadinessDecision
  outcome : MachineShutdownPreparationOutcome

namespace MachineShutdownPreparationReport

/-- Do the parts speak of one occurrence and one instant? -/
def isConsistent (report : MachineShutdownPreparationReport) : Bool :=
  report.occurrence = report.initialDecision.occurrence ∧
  report.initialDecision.evaluatedAt = report.processedAt ∧
  (report.plan.all fun plan => plan.plannedAt = report.processedAt ∧
    plan.occurrence = report.occurrence ∧ plan.initialDecision = report.initialDecision) ∧
  (report.finalDecision.all fun decision => decision.evaluatedAt = report.processedAt ∧
    decision.occurrence = report.occurrence)

def isFinal (event : MachineShutdownPreparationEvent) : Bool :=
  event.kind = .finalReadinessApproved ∨ event.kind = .finalReadinessRejected

/-- `validateEvents`: numbered from 1, begun by the start, with one final event at most. -/
def hasValidEvents (report : MachineShutdownPreparationReport) : Bool :=
  (report.events.zipIdx.all fun (event, index) => event.sequence = index + 1 ∧
    event.occurredAt = report.processedAt ∧ event.occurrence = report.occurrence) ∧
  (report.events.head?.all fun event => event.kind = .preparationStarted) ∧
  (report.events.filter isFinal).length ≤ 1

/-- `validateSteps`: the steps taken are the first of the plan, after its start. -/
def hasValidSteps (report : MachineShutdownPreparationReport) : Bool :=
  match report.plan with
  | none => report.steps.length = 0
  | some plan => (report.steps.map (·.kind)).isPrefixOf
      (plan.steps.filter (· ≠ .recordPreparationStarted))

/-- What the outcome says about the parts. -/
def hasValidOutcome (report : MachineShutdownPreparationReport) : Bool :=
  let initial := report.initialDecision.outcome
  let final := report.finalDecision.map (·.outcome)
  let lastEvent := report.events.getLast?.map (·.kind)
  match report.outcome with
  | .notRequired =>
    initial = .approved ∧ (report.plan.any fun plan => plan.steps.length = 0) ∧
      report.steps.length = 0 ∧ report.events.length = 0 ∧ final = none
  | .blocked =>
    initial = .rejected ∧ report.plan = none ∧ report.steps.length = 0 ∧
      report.events.length = 0 ∧ final = none
  | .prepared =>
    initial = .rejected ∧ report.plan ≠ none ∧ final = some .approved ∧
      lastEvent = some .finalReadinessApproved ∧
      report.steps.getLast?.map (·.kind) = some .recordFinalReadiness
  | .incomplete =>
    initial = .rejected ∧ report.plan ≠ none ∧
      ¬ (final = some .approved ∧ lastEvent = some .finalReadinessApproved) ∧
      ¬ (final = some .rejected ∧ 0 < report.events.length ∧
        lastEvent ≠ some .finalReadinessRejected ∧
        report.events.any (·.kind = .finalReadinessRejected))

end MachineShutdownPreparationReport

def createMachineShutdownPreparationReport (report : MachineShutdownPreparationReport) :
    Option MachineShutdownPreparationReport :=
  if report.isConsistent ∧ report.hasValidEvents ∧ report.hasValidSteps ∧
      report.hasValidOutcome then some report
  else none

/-- The report about an approval, which needs no preparation. -/
def notRequiredReport (decision : MachineShutdownReadinessDecision) :
    MachineShutdownPreparationReport where
  occurrence := decision.occurrence
  processedAt := decision.evaluatedAt
  initialDecision := decision
  plan := some ⟨decision.occurrence, decision.evaluatedAt, decision, []⟩
  steps := []
  events := []
  finalDecision := none
  outcome := .notRequired

theorem createMachineShutdownPreparationReport_notRequired
    {decision : MachineShutdownReadinessDecision} (happroved : decision.outcome = .approved) :
    createMachineShutdownPreparationReport (notRequiredReport decision) =
      some (notRequiredReport decision) := by
  simp [createMachineShutdownPreparationReport, MachineShutdownPreparationReport.isConsistent,
    MachineShutdownPreparationReport.hasValidEvents,
    MachineShutdownPreparationReport.hasValidSteps,
    MachineShutdownPreparationReport.hasValidOutcome, notRequiredReport, happroved]

end AtlasManager.Power
