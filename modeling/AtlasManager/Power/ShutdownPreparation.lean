import AtlasManager.Lib.Prog
import AtlasManager.Power.PreparationRecords

/-!
# AtlasManager.Power.ShutdownPreparation

Readiness evaluation and preparation of a shutdown, as programs over the ports
of power management.

* `evaluateAt` -- asks the readers what blocks the shutdown;
* `prepareAt` -- removes the blockers that can be removed and evaluates again.
-/

namespace AtlasManager.Power

open AtlasManager.Lib AtlasManager.Service

/-! ## The ports -/

/-- How the path from an occurrence to its shutdown fails. -/
inductive MachineShutdownOccurrenceExecutionFailure where
  | claimFailed
  | wakeAlarmPreparationFailed
  | shutdownFailedAfterWakeScheduled
  | unexpectedExecutionFailure
  deriving DecidableEq, Repr

structure MachinePowerSchedulerCursor where
  completedThrough : Timestamp
  deriving DecidableEq

inductive MachinePowerSchedulerCursorResult where
  | advanced
  | conflict (cursor : Option MachinePowerSchedulerCursor)
  deriving DecidableEq

inductive MachineShutdownOccurrenceClaimPruningOutcome where
  | pruned
  | unchanged
  deriving DecidableEq, Repr

inductive AuditStatus where
  | succeeded
  | rejected
  | failed
  deriving DecidableEq, Repr

/-- The calls that power management makes. -/
inductive PowerCall where
  | confirm (occurrence : MachineShutdownOccurrence) (evaluatedAt : Timestamp)
  | readServices (occurrence : MachineShutdownOccurrence) (evaluatedAt : Timestamp)
  | readActiveTasks (occurrence : MachineShutdownOccurrence) (evaluatedAt : Timestamp)
  | readBackups (occurrence : MachineShutdownOccurrence) (evaluatedAt : Timestamp)
  | readFilesystem (occurrence : MachineShutdownOccurrence) (evaluatedAt : Timestamp)
  | readEventRecording (occurrence : MachineShutdownOccurrence) (evaluatedAt : Timestamp)
  | prepareServices (occurrence : MachineShutdownOccurrence) (requestedAt : Timestamp)
      (serviceIds : List String)
  | drain (occurrence : MachineShutdownOccurrence) (requestedAt : Timestamp)
  | complete (occurrence : MachineShutdownOccurrence) (requestedAt : Timestamp)
  | synchronize (occurrence : MachineShutdownOccurrence) (requestedAt : Timestamp)
  | record (event : MachineShutdownPreparationEvent)
  | claim (occurrence : MachineShutdownOccurrence)
  | pruneCompletedThrough (cursor : MachinePowerSchedulerCursor)
  | readCursor
  | advanceCursor (expected : Option MachinePowerSchedulerCursor)
      (next : MachinePowerSchedulerCursor)
  | schedule (requestedAt scheduledFor : Timestamp)
  /-- The controller is only given the instant; the occurrence says which one it is for. -/
  | requestShutdown (occurrence : MachineShutdownOccurrence) (requestedAt : Timestamp)
  | auditBegin (operation : String) (occurredAt : Timestamp)
  | auditComplete (status : AuditStatus) (details : List (String × JsValue))
  /-- No port: marks that a decision has been obtained. -/
  | decided (decision : MachineShutdownReadinessDecision)

/-- What a call answers; values of ports that are checked at run time are unknown. -/
abbrev PowerAnswer : PowerCall → Type
  | .readCursor => Option MachinePowerSchedulerCursor
  | .advanceCursor _ _ => MachinePowerSchedulerCursorResult
  | .pruneCompletedThrough _ => MachineShutdownOccurrenceClaimPruningOutcome
  | .decided _ => Unit
  | _ => JsValue

abbrev PowerProg (α : Type) :=
  Prog PowerCall PowerAnswer MachineShutdownOccurrenceExecutionFailure α

abbrev ask (call : PowerCall) : PowerProg (PowerAnswer call) := Prog.perform call

/-- A check whose error nobody tells from another. -/
def checked {ε α : Type} (result : Except ε α) : PowerProg α :=
  .ofExcept (result.mapError fun _ => .unexpectedExecutionFailure)

/-- A check that throws an error without a code. -/
def required {α : Type} : Option α → PowerProg α
  | some a => .pure a
  | none => .throw .unexpectedExecutionFailure

/-! ## Readiness -/

section Readiness

variable (localeCompare : LocaleCompare) (occurrence : MachineShutdownOccurrence)
  (evaluatedAt : Timestamp)

/-- The decision over the blockers that were found. -/
def decideOn (blockers : List MachineShutdownReadinessBlocker) :
    PowerProg MachineShutdownReadinessDecision := do
  let decision ← checked (createMachineShutdownReadinessDecision localeCompare occurrence
    evaluatedAt (outcomeOf blockers) blockers)
  ask (.decided decision)
  return decision

/-- The blockers that the service reader lists. -/
def serviceBlockers (result : JsValue) : Option (List MachineShutdownReadinessBlocker) := do
  let .arr items ← result.member? "blockers" | none
  items.mapM fun item => (createMachineShutdownReadinessBlocker item).toOption

def collectService : PowerProg (List MachineShutdownReadinessBlocker) := do
  let found ← Prog.attempt do
    let result ← ask (.readServices occurrence evaluatedAt)
    required (serviceBlockers result)
  match found with
  | .ok blockers => return blockers
  | .error _ => return [{ area := .services, code := .serviceReadinessUnavailable }]

/-- The blocker that the state of an area reports, if it is blocked. -/
def stateBlockers (result : JsValue) : Option (List MachineShutdownReadinessBlocker) := do
  let .str "blocked" ← result.member? "state" | some []
  let area ← result.member? "area"
  let blocker := match area with
    | .str "active_tasks" => JsValue.obj [("area", area), ("code", .str "active_tasks_present"),
        ("activeTaskCount", (result.member? "activeTaskCount").getD .undefined)]
    | _ => JsValue.obj [("area", area), ("code", (result.member? "reason").getD .undefined)]
  let blocker ← (createMachineShutdownReadinessBlocker blocker).toOption
  return [blocker]

/-- Ask the reader of an area. -/
def collect (read : PowerProg JsValue) (area : MachineShutdownBlockerArea) :
    PowerProg (List MachineShutdownReadinessBlocker) := do
  let found ← Prog.attempt do
    let result ← read
    required (stateBlockers result)
  match found with
  | .ok blockers => return blockers
  | .error _ => return [{ area, code := .readinessDependencyFailed }]

def evaluateAt : PowerProg MachineShutdownReadinessDecision := do
  let decideOn := decideOn localeCompare occurrence evaluatedAt
  if evaluatedAt.ms < occurrence.scheduledFor.ms then
    decideOn [{ area := .confirmation, code := .notDue }]
  else if evaluatedAt.ms ≥ occurrence.wakeScheduledFor.ms then
    decideOn [{ area := .confirmation, code := .stale }]
  else
    let confirmation : Except _ JsValue ← (ask (.confirm occurrence evaluatedAt)).attempt
    match confirmation with
    | .error _ => decideOn [{ area := .confirmation, code := .confirmationUnavailable }]
    | .ok (.str "confirmed") =>
      let services ← collectService occurrence evaluatedAt
      let tasks ← collect (ask (.readActiveTasks occurrence evaluatedAt)) .activeTasks
      let backups ← collect (ask (.readBackups occurrence evaluatedAt)) .backups
      let filesystem ←
        collect (ask (.readFilesystem occurrence evaluatedAt)) .filesystem
      let events ←
        collect (ask (.readEventRecording occurrence evaluatedAt)) .eventRecording
      decideOn (services ++ tasks ++ backups ++ filesystem ++ events)
    | .ok _ => decideOn [{ area := .confirmation, code := .notConfirmed }]

end Readiness

/-! ## The steps of a preparation -/

/-- How a step went, and the fields of its detail. -/
structure StepEffect where
  outcome : MachineShutdownPreparationStepOutcome
  detail : List (String × JsValue)

def serviceIdsToStop (decision : MachineShutdownReadinessDecision) : List String :=
  sortTexts <| distinct <| decision.blockers.filterMap fun blocker =>
    if blocker.code = .serviceRunning then blocker.serviceId else none

/-- How many steps have an outcome. -/
def countOutcome (steps : List JsValue) (outcome : String) : JsValue :=
  .num (steps.countP fun step =>
    match step.member? "outcome" with
    | some (.str text) => text = outcome
    | _ => false)

/-- What stopping the services came to; `none` where the result is refused. -/
def serviceEffect (serviceIds : List String) (result : JsValue) : Option StepEffect := do
  let .arr steps ← result.member? "steps" | none
  guard (steps.length ≤ serviceIds.length)
  let ids ← steps.mapM fun step => do
    let .str id ← step.member? "serviceId" | none
    return id
  guard (ids.all fun id => id ∈ serviceIds)
  guard ((distinct ids).length = steps.length)
  let successful ← result.member? "successful"
  guard (!successful.isTruthy || steps.length = serviceIds.length)
  match steps.find? fun step => ((step.member? "outcome").any isFailed) with
  | some failed => return {
      outcome := .failed
      detail := [("failureCode", (failed.member? "failureCode").getD .undefined),
        ("serviceSteps", .arr steps)] }
  | none => return {
      outcome := .completed
      detail := [("serviceSteps", .arr steps), ("stoppedCount", countOutcome steps "stopped"),
        ("alreadyStoppedCount", countOutcome steps "already_stopped")] }

/-- What a controller's result comes to: `blocked`, done with the text `done`, or skipped. -/
def controllerEffect (done : String) (blockedDetail : JsValue → List (String × JsValue))
    (result : JsValue) : Option StepEffect := do
  let outcome ← result.member? "outcome"
  match outcome with
  | .str "blocked" => return ⟨.blocked, blockedDetail result⟩
  | .str text =>
    return ⟨if text = done then .completed else .skipped, [("outcome", .str text)]⟩
  | _ => return ⟨.skipped, [("outcome", outcome)]⟩

def drainEffect : JsValue → Option StepEffect :=
  controllerEffect "drained" fun result =>
    [("failureCode", .str "active_tasks_present"),
      ("remainingTaskCount", (result.member? "remainingTaskCount").getD .undefined)]

/-- The reason that a blocked result gives. -/
def reasonDetail (result : JsValue) : List (String × JsValue) :=
  [("failureCode", (result.member? "reason").getD .undefined)]

def completeEffect : JsValue → Option StepEffect := controllerEffect "completed" reasonDetail

def synchronizeEffect : JsValue → Option StepEffect := controllerEffect "synchronized" reasonDetail

section Preparation

variable (localeCompare : LocaleCompare) (services : Bool)
  (occurrence : MachineShutdownOccurrence) (processedAt : Timestamp)

/-- The block of the `try` around a step. -/
def stepEffect (initialDecision : MachineShutdownReadinessDecision)
    (kind : MachineShutdownPreparationStep) : PowerProg StepEffect := do
  match kind with
  | .stopRegisteredServices =>
    let serviceIds := serviceIdsToStop initialDecision
    if !services then return ⟨.failed, [("failureCode", .str "service_stop_failed")]⟩
    let result ← ask (.prepareServices occurrence processedAt serviceIds)
    required (serviceEffect serviceIds result)
  | .drainActiveTasks =>
    let result ← ask (.drain occurrence processedAt)
    required (drainEffect result)
  | .completeBackup =>
    let result ← ask (.complete occurrence processedAt)
    required (completeEffect result)
  | _ =>
    let result ← ask (.synchronize occurrence processedAt)
    required (synchronizeEffect result)

def dependencyFailed : StepEffect :=
  ⟨.failed, [("failureCode", .str "preparation_dependency_failed")]⟩

def effectOf : Except MachineShutdownOccurrenceExecutionFailure StepEffect → StepEffect
  | .ok effect => effect
  | .error _ => dependencyFailed

/-- The detail that goes into the result of a step. -/
def resultDetail (kind : MachineShutdownPreparationStep) (effect : StepEffect) : JsValue :=
  if kind = .stopRegisteredServices then
    .obj <| [("serviceSteps",
      if hasOwn effect.detail "serviceSteps" then field effect.detail "serviceSteps"
      else .arr [])] ++
      (if effect.outcome = .failed then [("failureCode", field effect.detail "failureCode")]
       else [])
  else .obj effect.detail

def completedKind : MachineShutdownPreparationStep → MachineShutdownPreparationEventKind
  | .stopRegisteredServices => .servicesPrepared
  | .drainActiveTasks => .activeTasksPrepared
  | .completeBackup => .backupPrepared
  | _ => .filesystemPrepared

/-- The detail of the event that a step is done. -/
def completedDetail (kind : MachineShutdownPreparationStep) (effect : StepEffect) :
    List (String × JsValue) :=
  let count (name : String) :=
    if hasOwn effect.detail name then field effect.detail name else .num 0
  if kind = .stopRegisteredServices then
    [("stoppedCount", count "stoppedCount"), ("alreadyStoppedCount", count "alreadyStoppedCount")]
  else effect.detail

/-- Record an event; the events with it, or `none` when that fails. -/
def recordEvent (events : List MachineShutdownPreparationEvent)
    (kind : MachineShutdownPreparationEventKind) (detail : List (String × JsValue)) :
    PowerProg (Option (List MachineShutdownPreparationEvent)) := do
  let recorded ← Prog.attempt do
    -- a failed record gives its number back, so the next number is the count
    let value ← required
      (createMachineShutdownPreparationEvent (events.length + 1) kind occurrence processedAt detail)
    let _ ← ask (.record value)
    return value
  match recorded with
  | .ok value => return some (events ++ [value])
  | .error _ => return none

/-- Record that a step failed; it makes no difference whether that works. -/
def recordFailure (events : List MachineShutdownPreparationEvent)
    (failedStep : MachineShutdownPreparationStep) (failureCode : String) :
    PowerProg (List MachineShutdownPreparationEvent) := do
  let recorded ← recordEvent occurrence processedAt events .preparationFailed
    [("failedStep", .str failedStep.text), ("failureCode", .str failureCode)]
  return recorded.getD events

/-- The code of a failure, which the check of the step's result has found to be a text. -/
def failureCodeOf (detail : List (String × JsValue)) : String :=
  match field detail "failureCode" with
  | .str code => code
  | _ => "preparation_dependency_failed"

/-- What the steps leave: the report of a preparation that ends here, or the
results and events so far. -/
abbrev Progress :=
  MachineShutdownPreparationReport ⊕
    (List MachineShutdownPreparationStepResult × List MachineShutdownPreparationEvent)

/-- The report of a preparation that ends before the final decision is recorded. -/
def incompleteReport (initialDecision : MachineShutdownReadinessDecision)
    (plan : MachineShutdownPreparationPlan) (steps : List MachineShutdownPreparationStepResult)
    (events : List MachineShutdownPreparationEvent)
    (finalDecision : Option MachineShutdownReadinessDecision) :
    PowerProg MachineShutdownPreparationReport :=
  required (createMachineShutdownPreparationReport {
    occurrence, processedAt, initialDecision, plan := some plan, steps, events, finalDecision
    outcome := .incomplete })

def prepareSteps (initialDecision : MachineShutdownReadinessDecision)
    (plan : MachineShutdownPreparationPlan) :
    List MachineShutdownPreparationStep → List MachineShutdownPreparationStepResult →
      List MachineShutdownPreparationEvent → PowerProg Progress
  | [], steps, events => return .inr (steps, events)
  | kind :: kinds, steps, events => do
    if kind.isRecord then prepareSteps initialDecision plan kinds steps events
    else
      let tried ← (stepEffect services occurrence processedAt initialDecision kind).attempt
      let effect := effectOf tried
      let step ← required (createMachineShutdownPreparationStepResult kind processedAt processedAt
        effect.outcome (some (resultDetail kind effect)))
      let steps := steps ++ [step]
      let incomplete (events : List MachineShutdownPreparationEvent) : PowerProg Progress := do
        let report ← incompleteReport occurrence processedAt initialDecision plan steps events none
        return .inl report
      if effect.outcome = .blocked ∨ effect.outcome = .failed then
        let events ←
          recordFailure occurrence processedAt events kind (failureCodeOf effect.detail)
        incomplete events
      else
        let recorded ← recordEvent occurrence processedAt events (completedKind kind)
          (completedDetail kind effect)
        match recorded with
        | some events => prepareSteps initialDecision plan kinds steps events
        | none =>
          let events ←
            recordFailure occurrence processedAt events kind "event_recording_failed"
          incomplete events

/-- The result of a step that only records. -/
def recordStep (kind : MachineShutdownPreparationStep) :
    PowerProg MachineShutdownPreparationStepResult :=
  required (createMachineShutdownPreparationStepResult kind processedAt processedAt .completed none)

/-- The event that records the final decision. -/
def finalEvent (decision : MachineShutdownReadinessDecision) :
    MachineShutdownPreparationEventKind × List (String × JsValue) :=
  match decision.outcome with
  | .approved => (.finalReadinessApproved, [])
  | .rejected => (.finalReadinessRejected,
      [("blockerCodes", .arr (decision.blockers.map fun blocker => .str blocker.code.text))])

/-- What follows the steps: the final decision, and recording it. -/
def concludePreparation (initialDecision : MachineShutdownReadinessDecision)
    (plan : MachineShutdownPreparationPlan) (steps : List MachineShutdownPreparationStepResult)
    (events : List MachineShutdownPreparationEvent) :
    PowerProg MachineShutdownPreparationReport := do
  let incomplete := incompleteReport occurrence processedAt initialDecision plan
  let completion ← recordStep processedAt .recordPreparationCompleted
  let steps := steps ++ [completion]
  match ← recordEvent occurrence processedAt events .preparationCompleted [] with
  | none => incomplete steps events none
  | some events =>
    let finalDecision ← evaluateAt localeCompare occurrence processedAt
    let reevaluation ← recordStep processedAt .reevaluateReadiness
    let steps := steps ++ [reevaluation]
    let (finalKind, detail) := finalEvent finalDecision
    match ← recordEvent occurrence processedAt events finalKind detail with
    | none =>
      let events ←
        recordFailure occurrence processedAt events .recordFinalReadiness "event_recording_failed"
      incomplete steps events (some finalDecision)
    | some events =>
      let final ← recordStep processedAt .recordFinalReadiness
      required (createMachineShutdownPreparationReport {
        occurrence, processedAt, initialDecision, plan := some plan
        steps := steps ++ [final]
        events
        finalDecision := some finalDecision
        outcome := if finalDecision.outcome = .approved then .prepared else .incomplete })

def prepareAt (suppliedDecision : Option MachineShutdownReadinessDecision) :
    PowerProg MachineShutdownPreparationReport := do
  let initialDecision ← match suppliedDecision with
    | some decision => pure decision
    | none => evaluateAt localeCompare occurrence processedAt
  let report (plan : Option MachineShutdownPreparationPlan)
      (outcome : MachineShutdownPreparationOutcome) : PowerProg MachineShutdownPreparationReport :=
    required (createMachineShutdownPreparationReport {
      occurrence, processedAt, initialDecision, plan, steps := [], events := []
      finalDecision := none, outcome })
  match ← checked (createMachineShutdownPreparationPlan occurrence processedAt initialDecision) with
  | .blocked _ => report none .blocked
  | .planned plan =>
    if plan.steps.length = 0 then report (some plan) .notRequired
    else
      match ← recordEvent occurrence processedAt [] .preparationStarted [] with
      | none => incompleteReport occurrence processedAt initialDecision plan [] [] none
      | some events =>
        match ← prepareSteps services occurrence processedAt initialDecision plan plan.steps []
          events with
        | .inl report => return report
        | .inr (steps, events) =>
          concludePreparation localeCompare occurrence processedAt initialDecision plan steps events

end Preparation

end AtlasManager.Power
