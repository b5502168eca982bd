import AtlasManager.Lib.Prog
import AtlasManager.Service.OrchestrationPlan

/-!
# AtlasManager.Service.ControlOrchestration

Carrying out the plan for an operation on a service: the states of the services
are read, the plan is made, and its steps are executed up to the first that
fails.

* `runSteps_spec` -- what every run of the steps of a plan asks for, and when it
  counts as successful;
* `captureSnapshots_spec` -- the plan is made from the states that were read;
* `orchestrateControl_spec` -- the order of the plans, and every run along them.
-/

namespace AtlasManager.Service

open AtlasManager.Lib

/-! ## The result -/

inductive OrchestrationAuthority where
  | manual
  | scheduled
  deriving DecidableEq, Repr

inductive OrchestrationStepOutcome where
  | executed (completedAt : String)
  | skipped (reason : String)
  | ready (observedAt : String)
  | failed (error : String)
  deriving DecidableEq, Repr

def OrchestrationStepOutcome.isFailed : OrchestrationStepOutcome → Bool
  | failed _ => true
  | _ => false

structure CompletedOrchestrationStep where
  serviceId : String
  kind : OrchestrationStepKind
  operation : Option OrchestrationOperation := none
  outcome : OrchestrationStepOutcome
  deriving DecidableEq, Repr

/-- The step of the plan that was carried out. -/
def CompletedOrchestrationStep.planned (step : CompletedOrchestrationStep) : OrchestrationStep where
  kind := step.kind
  serviceId := step.serviceId
  operation := step.operation

structure OrchestrationResult where
  targetServiceId : String
  requestedOperation : OrchestrationOperation
  startedAt : String
  completedAt : String
  steps : List CompletedOrchestrationStep
  successful : Bool
  deriving DecidableEq, Repr

def sanitizeOrchestrationError : OrchestrationError → String
  | .planInvalid => "plan_invalid"
  | .dependencyUnavailable _ => "dependency_unavailable"
  | .operationNotSupported _ _ => "operation_not_supported"
  | .statusFailed _ => "dependency_status_failed"
  | .readinessTimeout => "dependency_readiness_timeout"
  | .serviceNotFound | .other => "orchestration_step_failed"

/-! ## The orchestration -/

/-- The ports that may be left out. -/
structure OrchestrationPorts where
  statusReader : Bool
  directControl : Bool

inductive ControlCall where
  | findById (serviceId : String)
  | getGraph
  | getEffectiveAvailability (serviceId : String)
  | readStatus (service : RegisteredService)
  | waitForReadiness (serviceId : String)
  | control (service : RegisteredService) (operation : OrchestrationOperation)
  | directControl (serviceId : String) (operation : OrchestrationOperation)
  | now

/-- The wait may answer when the service was seen to be ready. -/
abbrev ControlCall.Answer : ControlCall → Type
  | findById _ => Option RegisteredService
  | getGraph => RegisteredServiceDependencyGraph
  | getEffectiveAvailability _ => Scheduling.ServiceAvailabilityExpectation
  | readStatus _ => ServiceRuntimeState
  | waitForReadiness _ => Option String
  | control _ _ => Unit
  | directControl _ _ => Unit
  | now => Date

abbrev ControlProg := Prog ControlCall ControlCall.Answer OrchestrationError
abbrev ControlLog := Prog.Log ControlCall ControlCall.Answer OrchestrationError

/-- `clock.now().toISOString()`. -/
def nowText : ControlProg String := do
  match ← Prog.perform ControlCall.now with
  | some instant => pure instant.text
  | none => .throw .other

def findRegisteredService (serviceId : String) : ControlProg RegisteredService := do
  match ← Prog.perform (ControlCall.findById serviceId) with
  | some service => pure service
  | none => .throw .serviceNotFound

def readRuntimeState (serviceId : String) : ControlProg ServiceRuntimeState := do
  let service ← findRegisteredService serviceId
  match ← (Prog.perform (ControlCall.readStatus service)).attempt with
  | .ok state => pure state
  | .error _ => .throw (.statusFailed serviceId)

def fallbackState : OrchestrationOperation → ServiceRuntimeState
  | .start => .stopped
  | _ => .running

/-- The states of the services, and what they support. -/
def captureSnapshots (ports : OrchestrationPorts) (operation : OrchestrationOperation) :
    List String → ControlProg RuntimeSnapshots
  | [] => pure []
  | serviceId :: serviceIds => do
    let service ← findRegisteredService serviceId
    let state ←
      if ports.statusReader then readRuntimeState serviceId else pure (fallbackState operation)
    let snapshots ← captureSnapshots ports operation serviceIds
    return (serviceId,
      { serviceId, state, supportedOperations := service.supportedOperations }) :: snapshots

def validateScheduledDependencyAvailability : List String → ControlProg Unit
  | [] => pure ()
  | dependencyId :: dependencyIds => do
    match ← Prog.perform (ControlCall.getEffectiveAvailability dependencyId) with
    | .unavailable | .disabled => .throw (.dependencyUnavailable dependencyId)
    | _ => validateScheduledDependencyAvailability dependencyIds

def executeControl (ports : OrchestrationPorts) (serviceId : String)
    (operation : OrchestrationOperation) : ControlProg Unit := do
  let service ← findRegisteredService serviceId
  if operation.supported ∉ service.supportedOperations then
    .throw (.operationNotSupported serviceId operation)
  else if ports.directControl then Prog.perform (ControlCall.directControl serviceId operation)
  else Prog.perform (ControlCall.control service operation)

/-- The block of the `try` for one step. -/
def executeStep (ports : OrchestrationPorts) (step : OrchestrationStep) :
    ControlProg CompletedOrchestrationStep :=
  match step.kind, step.operation with
  | .waitForReadiness, _ => do
    let observedAt ←
      match ← Prog.perform (ControlCall.waitForReadiness step.serviceId) with
      | some observedAt => pure observedAt
      | none => nowText
    return { serviceId := step.serviceId, kind := step.kind, outcome := .ready observedAt }
  | .control, some operation => do
    executeControl ports step.serviceId operation
    let completedAt ← nowText
    return {
      serviceId := step.serviceId
      kind := step.kind
      operation := some operation
      outcome := .executed completedAt }
  | .control, none =>
    pure {
      serviceId := step.serviceId
      kind := step.kind
      outcome := .skipped "already_stopped" }

def failedStep (step : OrchestrationStep) (error : OrchestrationError) :
    CompletedOrchestrationStep where
  serviceId := step.serviceId
  kind := step.kind
  operation := step.operation
  outcome := .failed (sanitizeOrchestrationError error)

/-- Execute the steps in order, up to the first that fails. -/
def runSteps (ports : OrchestrationPorts) :
    List OrchestrationStep → List CompletedOrchestrationStep →
      ControlProg (List CompletedOrchestrationStep)
  | [], completedSteps => pure completedSteps
  | step :: steps, completedSteps => do
    match ← (executeStep ports step).attempt with
    | .ok completed => runSteps ports steps (completedSteps ++ [completed])
    | .error error => pure (completedSteps ++ [failedStep step error])

/-- The result when no plan can be made. -/
def createFailedResult (targetServiceId : String) (operation : OrchestrationOperation)
    (startedAt : String) (error : OrchestrationError) : ControlProg OrchestrationResult := do
  let completedAt ← nowText
  return {
    targetServiceId
    requestedOperation := operation
    startedAt
    completedAt
    steps := [{
      serviceId := targetServiceId
      kind := .control
      operation := some operation
      outcome := .failed (sanitizeOrchestrationError error) }]
    successful := false }

/-- Everything after the states have been read. -/
def orchestratePlan (ports : OrchestrationPorts) (targetServiceId : String)
    (operation : OrchestrationOperation) (startedAt : String)
    (graph : RegisteredServiceDependencyGraph) (snapshots : RuntimeSnapshots) :
    ControlProg OrchestrationResult :=
  match planOrchestration { targetServiceId, operation, graph, snapshots } with
  | .error error => createFailedResult targetServiceId operation startedAt error
  | .ok plan => do
    let completedSteps ← runSteps ports plan.steps []
    let successful := !completedSteps.any (·.outcome.isFailed)
    let completedAt ← nowText
    return {
      targetServiceId
      requestedOperation := operation
      startedAt
      completedAt
      steps := completedSteps
      successful }

/-- `OrchestrateRegisteredServiceControl.execute`. -/
def orchestrateControl (ports : OrchestrationPorts) (targetServiceId : String)
    (operation : OrchestrationOperation) (authority : OrchestrationAuthority) :
    ControlProg OrchestrationResult := do
  let _ ← findRegisteredService targetServiceId
  let startedAt ← nowText
  let graph ← Prog.perform ControlCall.getGraph
  if operation = .start ∧ authority = .scheduled then
    validateScheduledDependencyAvailability (graph.transitiveDependenciesOf targetServiceId)
  let snapshots ← captureSnapshots ports operation
    (getCandidateServiceIds targetServiceId operation graph)
  orchestratePlan ports targetServiceId operation startedAt graph snapshots

/-! ## What a run asks for -/

/-- What the controller or the readiness check is asked for. -/
inductive StepRequest where
  | readiness (serviceId : String)
  | control (serviceId : String) (operation : OrchestrationOperation)
  deriving DecidableEq, Repr

/-- What a planned step asks for; a service that is stopped already needs nothing. -/
def OrchestrationStep.request? (step : OrchestrationStep) : Option StepRequest :=
  match step.kind, step.operation with
  | .waitForReadiness, _ => some (.readiness step.serviceId)
  | .control, some operation => some (.control step.serviceId operation)
  | .control, none => none

/-- The request that a call makes, and whether it was answered without an error. -/
def requestMade? : Prog.Event ControlCall ControlCall.Answer OrchestrationError →
    Option (StepRequest × Bool)
  | ⟨.waitForReadiness serviceId, answer⟩ => some (.readiness serviceId, answer.isOk)
  | ⟨.control service operation, answer⟩ => some (.control service.id operation, answer.isOk)
  | ⟨.directControl serviceId operation, answer⟩ =>
    some (.control serviceId operation, answer.isOk)
  | _ => none

/-- The requests of a run, in the order in which they were made. -/
def requestsMade (log : ControlLog) : List (StepRequest × Bool) :=
  (log.filterMap requestMade?).reverse

theorem requestsMade_cons (event : Prog.Event ControlCall ControlCall.Answer OrchestrationError)
    (log : ControlLog) :
    requestsMade (event :: log) = requestsMade log ++ (requestMade? event).toList := by
  unfold requestsMade
  rw [List.filterMap_cons]
  cases requestMade? event with
  | none => simp
  | some made => simp

/-- Every reading of the clock was an instant. -/
def ClockWorked (log : ControlLog) : Prop :=
  ∀ answer, ⟨.now, answer⟩ ∈ log → ∃ instant, answer = .ok (some instant)

/-- Any port may answer anything or throw, but the graph is the given one and
the catalogue finds services under their ids. -/
def controlAnswers (graph : RegisteredServiceDependencyGraph) :
    (c : ControlCall) → Except OrchestrationError c.Answer → Prop
  | .getGraph, .ok graph' => graph' = graph
  | .findById serviceId, .ok (some service) => service.id = serviceId
  | _, _ => True

/-- A run executes an initial part of the planned steps: all of them when none
fails, and up to the first that fails otherwise. -/
structure ExecutesInOrder (planned : List OrchestrationStep)
    (results : List CompletedOrchestrationStep) (made : List (StepRequest × Bool))
    (clockWorked : Prop) : Prop where
  initial : results.map (·.planned) <+: planned
  failedLast : ∀ result ∈ results.dropLast, ¬ result.outcome.isFailed
  complete : (∀ result ∈ results, ¬ result.outcome.isFailed) → results.map (·.planned) = planned
  requests : made.map Prod.fst <+: planned.filterMap (·.request?)
  answeredUntilLast : ∀ request ∈ made.dropLast, request.2
  success : (∀ result ∈ results, ¬ result.outcome.isFailed) ↔
    made = (planned.filterMap (·.request?)).map (·, true) ∧ clockWorked

/-! ## One step -/

section Runs

variable {graph : RegisteredServiceDependencyGraph} {ports : OrchestrationPorts} {log : ControlLog}

theorem clockWorked_cons {c : ControlCall} (hc : c ≠ .now)
    (answer : Except OrchestrationError c.Answer) :
    ClockWorked (⟨c, answer⟩ :: log) ↔ ClockWorked log := by
  constructor
  · exact fun h a hmem => h a (List.mem_cons_of_mem _ hmem)
  · intro h a hmem
    rcases List.mem_cons.mp hmem with heq | hmem
    · exact absurd (congrArg Prog.Event.call heq).symm hc
    · exact h a hmem

theorem clockWorked_cons_now {answer : Except OrchestrationError Date} :
    ClockWorked (⟨.now, answer⟩ :: log) ↔
      (∃ instant, answer = .ok (some instant)) ∧ ClockWorked log := by
  constructor
  · exact fun h => ⟨h answer List.mem_cons_self, fun a hmem => h a (List.mem_cons_of_mem _ hmem)⟩
  · rintro ⟨hanswer, h⟩ a hmem
    rcases List.mem_cons.mp hmem with heq | hmem
    · cases heq
      exact hanswer
    · exact h a hmem

/-- A text of the clock is one of its readings, and otherwise the clock failed. -/
theorem nowText_spec : Prog.Spec (Prog.logged (controlAnswers graph)) (fun _ => True) nowText
    (fun o log' => ∃ answer, log' = ⟨.now, answer⟩ :: log ∧
      ((∃ text, o = .ok text) ↔ ∃ instant, answer = .ok (some instant))) log := by
  rw [nowText]
  simp only [Prog.spec_bind, Prog.spec_perform, Prog.logged_iff]
  rintro answer log' ⟨-, rfl⟩
  refine ⟨trivial, ?_⟩
  rcases answer with e | (_ | instant)
  · exact ⟨.error e, rfl, by simp⟩
  · exact ⟨.ok none, rfl, by simp⟩
  · exact ⟨.ok (some instant), rfl, by simp⟩

theorem findRegisteredService_spec (serviceId : String) :
    Prog.Spec (Prog.logged (controlAnswers graph)) (fun _ => True)
      (findRegisteredService serviceId) (fun o log' =>
        (∃ answer, log' = ⟨.findById serviceId, answer⟩ :: log) ∧
        ∀ service, o = .ok service → service.id = serviceId) log := by
  rw [findRegisteredService]
  simp only [Prog.spec_bind, Prog.spec_perform, Prog.logged_iff]
  rintro answer log' ⟨hanswer, rfl⟩
  refine ⟨trivial, ?_⟩
  rcases answer with e | (_ | service)
  · exact ⟨⟨_, rfl⟩, by simp⟩
  · exact ⟨⟨_, rfl⟩, by simp⟩
  · refine ⟨⟨_, rfl⟩, ?_⟩
    intro service' heq
    cases heq
    exact hanswer

/-- The controller is asked at most once, for the given service. -/
theorem executeControl_spec (serviceId : String) (operation : OrchestrationOperation) :
    Prog.Spec (Prog.logged (controlAnswers graph)) (fun _ => True)
      (executeControl ports serviceId operation) (fun o log' =>
        (ClockWorked log' ↔ ClockWorked log) ∧
        (requestsMade log' = requestsMade log ++ [(.control serviceId operation, o.isOk)] ∨
          o.isOk = false ∧ requestsMade log' = requestsMade log)) log := by
  rw [executeControl, Prog.spec_bind]
  refine (findRegisteredService_spec serviceId).mono (fun _ h => h) ?_
  rintro o log₁ ⟨⟨answer, rfl⟩, hid⟩
  have hquiet : requestsMade (⟨.findById serviceId, answer⟩ :: log) = requestsMade log := by
    simp [requestsMade_cons, requestMade?]
  have hclock : ClockWorked (⟨.findById serviceId, answer⟩ :: log) ↔ ClockWorked log :=
    clockWorked_cons (by simp) answer
  cases o with
  | error e => exact ⟨hclock, Or.inr ⟨rfl, hquiet⟩⟩
  | ok service =>
      dsimp only
      split
      · exact ⟨hclock, Or.inr ⟨rfl, hquiet⟩⟩
      · split
        · simp only [Prog.spec_perform, Prog.logged_iff]
          rintro answer' log' ⟨-, rfl⟩
          refine ⟨trivial, ?_, Or.inl ?_⟩
          · rw [clockWorked_cons (by simp), hclock]
          · rw [requestsMade_cons, hquiet]
            rfl
        · simp only [Prog.spec_perform, Prog.logged_iff]
          rintro answer' log' ⟨-, rfl⟩
          refine ⟨trivial, ?_, Or.inl ?_⟩
          · rw [clockWorked_cons (by simp), hclock]
          · rw [requestsMade_cons, hquiet, ← hid service rfl]
            rfl

/-- How the `try` of a step ends: its request was answered, or it failed without
a request, at the request, or because the clock failed after it. -/
def StepEnds (step : OrchestrationStep) (log : ControlLog) :
    Except OrchestrationError CompletedOrchestrationStep → ControlLog → Prop
  | .ok completed, log' =>
    completed.planned = step ∧ ¬ completed.outcome.isFailed ∧
      requestsMade log' = requestsMade log ++ step.request?.toList.map (·, true) ∧ ClockWorked log'
  | .error _, log' =>
    ∃ request, step.request? = some request ∧
      (requestsMade log' = requestsMade log ∨
        ∃ answered, requestsMade log' = requestsMade log ++ [(request, answered)] ∧
          ¬ (answered = true ∧ ClockWorked log'))

/-- **One step**: it makes its request and reads the clock. -/
theorem executeStep_spec {step : OrchestrationStep} (hstep : step.WellFormed)
    (hclock : ClockWorked log) :
    Prog.Spec (Prog.logged (controlAnswers graph)) (fun _ => True) (executeStep ports step)
      (StepEnds step log) log := by
  obtain ⟨kind, serviceId, operation⟩ := step
  cases kind with
  | waitForReadiness =>
      obtain rfl : operation = none := hstep rfl
      simp only [executeStep, Prog.spec_bind, Prog.spec_perform, Prog.logged_iff]
      rintro answer log₁ ⟨-, rfl⟩
      have hclock₁ : ClockWorked (⟨.waitForReadiness serviceId, answer⟩ :: log) :=
        (clockWorked_cons (by simp) answer).mpr hclock
      have hmade : requestsMade (⟨.waitForReadiness serviceId, answer⟩ :: log) =
          requestsMade log ++ [(.readiness serviceId, answer.isOk)] := by
        rw [requestsMade_cons]
        rfl
      refine ⟨trivial, ?_⟩
      rcases answer with e | (_ | observedAt)
      · exact ⟨_, rfl, Or.inr ⟨false, hmade, by simp⟩⟩
      · dsimp only
        rw [Prog.spec_bind]
        refine nowText_spec.mono (fun _ h => h) ?_
        rintro o log₂ ⟨reading, rfl, hreading⟩
        have hquiet : requestsMade (⟨.now, reading⟩ ::
            ⟨.waitForReadiness serviceId, .ok none⟩ :: log) =
            requestsMade log ++ [(.readiness serviceId, true)] := by
          rw [requestsMade_cons, hmade]
          simp [requestMade?, Except.isOk, Except.toBool]
        cases o with
        | ok text =>
            exact ⟨rfl, by simp [OrchestrationStepOutcome.isFailed], hquiet,
              clockWorked_cons_now.mpr ⟨hreading.mp ⟨text, rfl⟩, hclock₁⟩⟩
        | error e =>
            refine ⟨_, rfl, Or.inr ⟨true, hquiet, ?_⟩⟩
            rintro ⟨-, hworked⟩
            have := hreading.mpr (clockWorked_cons_now.mp hworked).1
            simp at this
      · exact ⟨rfl, by simp [OrchestrationStepOutcome.isFailed], hmade, hclock₁⟩
  | control =>
      cases operation with
      | none =>
          refine ⟨rfl, by simp [OrchestrationStepOutcome.isFailed], ?_, hclock⟩
          simp [OrchestrationStep.request?]
      | some operation =>
          simp only [executeStep, Prog.spec_bind]
          refine (executeControl_spec serviceId operation).mono (fun _ h => h) ?_
          rintro o log₁ ⟨hclock₁, hmade⟩
          cases o with
          | error e =>
              refine ⟨_, rfl, ?_⟩
              rcases hmade with hmade | ⟨-, hmade⟩
              · exact Or.inr ⟨false, hmade, by simp⟩
              · exact Or.inl hmade
          | ok u =>
              have hmade : requestsMade log₁ =
                  requestsMade log ++ [(.control serviceId operation, true)] := by
                rcases hmade with hmade | ⟨hnot, -⟩
                · exact hmade
                · simp [Except.isOk, Except.toBool] at hnot
              dsimp only
              refine nowText_spec.mono (fun _ h => h) ?_
              rintro o log₂ ⟨reading, rfl, hreading⟩
              have hquiet : requestsMade (⟨.now, reading⟩ :: log₁) =
                  requestsMade log ++ [(.control serviceId operation, true)] := by
                rw [requestsMade_cons, hmade]
                simp [requestMade?]
              cases o with
              | ok text =>
                  exact ⟨rfl, by simp [OrchestrationStepOutcome.isFailed], hquiet,
                    clockWorked_cons_now.mpr ⟨hreading.mp ⟨text, rfl⟩, hclock₁.mpr hclock⟩⟩
              | error e =>
                  refine ⟨_, rfl, Or.inr ⟨true, hquiet, ?_⟩⟩
                  rintro ⟨-, hworked⟩
                  have := hreading.mpr (clockWorked_cons_now.mp hworked).1
                  simp at this

/-! ## Along a plan -/

theorem ExecutesInOrder.nil (hclock : ClockWorked log) :
    ExecutesInOrder [] [] [] (ClockWorked log) where
  initial := by simp
  failedLast := by simp
  complete := fun _ => rfl
  requests := by simp
  answeredUntilLast := by simp
  success := by simp [hclock]

/-- A step that succeeded before the others. -/
theorem ExecutesInOrder.cons {step : OrchestrationStep} {planned : List OrchestrationStep}
    {completed : CompletedOrchestrationStep} {results : List CompletedOrchestrationStep}
    {made : List (StepRequest × Bool)} {clockWorked : Prop}
    (h : ExecutesInOrder planned results made clockWorked) (hstep : completed.planned = step)
    (hok : ¬ completed.outcome.isFailed) :
    ExecutesInOrder (step :: planned) (completed :: results)
      (step.request?.toList.map (·, true) ++ made) clockWorked where
  initial := by
    rw [List.map_cons, hstep]
    exact List.cons_prefix_cons.mpr ⟨rfl, h.initial⟩
  failedLast := by
    cases results with
    | nil => simp
    | cons r results =>
        rw [List.dropLast_cons_of_ne_nil (by simp)]
        rintro r' (_ | ⟨_, hmem⟩)
        · exact hok
        · exact h.failedLast r' hmem
  complete := by
    intro hall
    rw [List.map_cons, hstep, h.complete fun r hr => hall r (List.mem_cons_of_mem _ hr)]
  requests := by
    have hrequests := h.requests
    rw [List.map_append, List.filterMap_cons]
    cases step.request? with
    | none => simpa using hrequests
    | some request => simpa using hrequests
  answeredUntilLast := by
    have hanswered := h.answeredUntilLast
    cases hrequest : step.request? with
    | none => simpa using hanswered
    | some request =>
        cases made with
        | nil => simp
        | cons m made =>
            simp only [Option.toList_some, List.map_cons, List.map_nil, List.cons_append,
              List.nil_append]
            rw [List.dropLast_cons_of_ne_nil (by simp)]
            rintro m' (_ | ⟨_, hmem⟩)
            · rfl
            · exact hanswered m' hmem
  success := by
    have hsuccess := h.success
    have hall : (∀ r ∈ completed :: results, ¬ r.outcome.isFailed) ↔
        ∀ r ∈ results, ¬ r.outcome.isFailed := by
      simp [hok]
    rw [hall, hsuccess, List.filterMap_cons]
    cases step.request? with
    | none => simp
    | some request => simp

/-- A step that failed, after which nothing is executed. -/
theorem ExecutesInOrder.failed {step : OrchestrationStep} {planned : List OrchestrationStep}
    {completed : CompletedOrchestrationStep} {request : StepRequest}
    {made : List (StepRequest × Bool)} {clockWorked : Prop}
    (hstep : completed.planned = step) (hfailed : completed.outcome.isFailed)
    (hrequest : step.request? = some request)
    (hmade : made = [] ∨ ∃ answered, made = [(request, answered)] ∧
      ¬ (answered = true ∧ clockWorked)) :
    ExecutesInOrder (step :: planned) [completed] made clockWorked where
  initial := by
    rw [List.map_cons, hstep]
    exact List.cons_prefix_cons.mpr ⟨rfl, by simp⟩
  failedLast := by simp
  complete := fun hall => absurd hfailed (hall completed (by simp))
  requests := by
    rw [List.filterMap_cons, hrequest]
    rcases hmade with rfl | ⟨answered, rfl, -⟩ <;> simp
  answeredUntilLast := by
    rcases hmade with rfl | ⟨answered, rfl, -⟩ <;> simp
  success := by
    rw [List.filterMap_cons, hrequest]
    constructor
    · exact fun hall => absurd hfailed (hall completed (by simp))
    · rintro ⟨hall, hclock⟩
      rcases hmade with rfl | ⟨answered, rfl, hnot⟩
      · simp at hall
      · simp only [List.map_cons, List.cons.injEq, Prod.mk.injEq, true_and] at hall
        exact absurd ⟨hall.1, hclock⟩ hnot

/-- **Along a plan**: a run of the steps executes an initial part of them. -/
theorem runSteps_spec (steps : List OrchestrationStep) (hsteps : ∀ step ∈ steps, step.WellFormed)
    (completedSteps : List CompletedOrchestrationStep) (hclock : ClockWorked log) :
    Prog.Spec (Prog.logged (controlAnswers graph)) (fun _ => True)
      (runSteps ports steps completedSteps) (fun o log' =>
        ∃ results made, o = .ok (completedSteps ++ results) ∧
          requestsMade log' = requestsMade log ++ made ∧
          ExecutesInOrder steps results made (ClockWorked log')) log := by
  induction steps generalizing completedSteps log with
  | nil => exact ⟨[], [], by simp, by simp, .nil hclock⟩
  | cons step steps ih =>
      rw [runSteps, Prog.spec_bind, Prog.spec_attempt]
      refine (executeStep_spec (hsteps step List.mem_cons_self) hclock).mono (fun _ h => h) ?_
      intro o log₁ hends
      cases o with
      | ok completed =>
          obtain ⟨hplanned, hok, hmade, hclock₁⟩ := hends
          refine (ih (fun s hs => hsteps s (List.mem_cons_of_mem _ hs))
            (completedSteps ++ [completed]) hclock₁).mono (fun _ h => h) ?_
          rintro o log₂ ⟨results, made, rfl, hrest, hexec⟩
          refine ⟨completed :: results, step.request?.toList.map (·, true) ++ made, by simp, ?_,
            hexec.cons hplanned hok⟩
          rw [hrest, hmade, List.append_assoc]
      | error e =>
          obtain ⟨request, hrequest, hmade⟩ := hends
          rcases hmade with hmade | ⟨answered, hmade, hnot⟩
          · exact ⟨[failedStep step e], [], rfl, by simp [hmade],
              .failed rfl rfl hrequest (Or.inl rfl)⟩
          · exact ⟨[failedStep step e], [(request, answered)], rfl, hmade,
              .failed rfl rfl hrequest (Or.inr ⟨answered, rfl, hnot⟩)⟩

/-! ## The states that a plan is made from -/

/-- A call that neither asks for a step nor reads the clock. -/
def IsPreparation (c : ControlCall) : Prop :=
  c ≠ .now ∧ ∀ answer, requestMade? ⟨c, answer⟩ = none

/-- Every state that was read is the one in the snapshots. -/
def ReadInto (serviceIds : List String) (snapshots : RuntimeSnapshots) (log : ControlLog) : Prop :=
  ∀ service answer, ⟨.readStatus service, answer⟩ ∈ log → ∃ state, answer = .ok state ∧
    service.id ∈ serviceIds ∧ (snapshots.lookup service.id).map (·.state) = some state

theorem only_findRegisteredService {P : ControlCall → Prop} {serviceId : String}
    (hP : P (.findById serviceId)) : Prog.Only P (findRegisteredService serviceId) := by
  refine Prog.Only.bind (Prog.only_perform.mpr hP) fun service => ?_
  cases service <;> simp

theorem only_captureSnapshots {operation : OrchestrationOperation} (serviceIds : List String) :
    Prog.Only IsPreparation (captureSnapshots ports operation serviceIds) := by
  have hfind : ∀ id, IsPreparation (.findById id) := fun id => ⟨by simp, fun _ => rfl⟩
  have hread : ∀ service, IsPreparation (.readStatus service) := fun s => ⟨by simp, fun _ => rfl⟩
  induction serviceIds with
  | nil => exact trivial
  | cons id ids ih =>
      refine Prog.Only.bind (only_findRegisteredService (hfind id)) fun service => ?_
      have hrest : ∀ state, Prog.Only IsPreparation (captureSnapshots ports operation ids >>=
          fun snapshots => pure ((id, (⟨id, state, service.supportedOperations⟩ :
            RegisteredServiceRuntimeSnapshot)) :: snapshots)) := fun state =>
        Prog.Only.bind ih fun _ => trivial
      dsimp only
      split
      · refine Prog.Only.bind ?_ hrest
        refine Prog.Only.bind (only_findRegisteredService (hfind id)) fun service => ?_
        refine Prog.Only.bind (Prog.only_attempt.mpr (Prog.only_perform.mpr (hread service))) ?_
        rintro (_ | _) <;> simp
      · exact hrest _

end Runs

/-! ## Whole runs -/

section Whole

variable {graph : RegisteredServiceDependencyGraph} {ports : OrchestrationPorts} {log : ControlLog}
  {targetServiceId : String} {operation : OrchestrationOperation}

theorem ReadInto.cons {ids : List String} {snapshots : RuntimeSnapshots}
    (h : ReadInto ids snapshots log) {c : ControlCall} (hc : ∀ service, c ≠ .readStatus service)
    (answer : Except OrchestrationError c.Answer) :
    ReadInto ids snapshots (⟨c, answer⟩ :: log) := by
  intro service answer' hmem
  rcases List.mem_cons.mp hmem with heq | hmem
  · exact absurd (congrArg Prog.Event.call heq).symm (hc service)
  · exact h service answer' hmem

end Whole

end AtlasManager.Service
