import AtlasManager.Service.DependencyGraph

/-!
# AtlasManager.Service.OrchestrationPlan

The plan for starting, stopping or restarting a service together with the
services it depends on or that depend on it.

* `planStart_ordered` -- no service is started before those it depends on were
  started and waited for;
* `planStop_ordered` -- no service is stopped before the running services that
  depend on it;
* `plan_start_blocked` -- with a failed or unknown service on the way there is
  no plan for a start.
-/

namespace AtlasManager.Service

open AtlasManager.Lib Relation

/-! ## Plans -/

/-- `RegisteredServiceOrchestrationOperation`. -/
inductive OrchestrationOperation where
  | start
  | stop
  | restart
  deriving DecidableEq, Repr

def OrchestrationOperation.text : OrchestrationOperation → String
  | start => "start"
  | stop => "stop"
  | restart => "restart"

/-- The operation as a service lists it among those it supports. -/
def OrchestrationOperation.supported : OrchestrationOperation → SupportedServiceOperation
  | start => .start
  | stop => .stop
  | restart => .restart

inductive OrchestrationStepKind where
  | control
  | waitForReadiness
  deriving DecidableEq, Repr

def OrchestrationStepKind.text : OrchestrationStepKind → String
  | control => "control"
  | waitForReadiness => "wait_for_readiness"

/-- A control step without an operation finds its service stopped already. -/
structure OrchestrationStep where
  kind : OrchestrationStepKind
  serviceId : String
  operation : Option OrchestrationOperation := none
  deriving DecidableEq, Repr

structure OrchestrationPlan where
  targetServiceId : String
  requestedOperation : OrchestrationOperation
  steps : List OrchestrationStep
  deriving DecidableEq, Repr

structure RegisteredServiceRuntimeSnapshot where
  serviceId : String
  state : ServiceRuntimeState
  supportedOperations : List SupportedServiceOperation
  deriving DecidableEq, Repr

/-- The snapshots of the services by their ids. -/
abbrev RuntimeSnapshots := List (String × RegisteredServiceRuntimeSnapshot)

inductive OrchestrationError where
  /-- `RegisteredServiceOrchestrationPlanError` -/
  | planInvalid
  /-- `RegisteredServiceOrchestrationStatusError` -/
  | statusFailed (serviceId : String)
  /-- `UnavailableDependencyBlockedError` -/
  | dependencyUnavailable (serviceId : String)
  /-- `OrchestrationOperationNotSupportedError` -/
  | operationNotSupported (serviceId : String) (operation : OrchestrationOperation)
  | readinessTimeout
  | serviceNotFound
  /-- whatever else is thrown -/
  | other
  deriving DecidableEq, Repr

structure PlanRegisteredServiceOrchestrationInput where
  targetServiceId : String
  operation : OrchestrationOperation
  graph : RegisteredServiceDependencyGraph
  snapshots : RuntimeSnapshots

/-! ## Planning -/

/-- The services that an operation on the target is about. -/
def getCandidateServiceIds (targetServiceId : String) (operation : OrchestrationOperation)
    (graph : RegisteredServiceDependencyGraph) : List String :=
  match operation with
  | .start =>
    graph.topologicalDependenciesFirst
      (graph.transitiveDependenciesOf targetServiceId ++ [targetServiceId])
  | _ =>
    let ordered := graph.topologicalDependentsFirst
      (graph.transitiveDependentsOf targetServiceId ++ [targetServiceId])
    if targetServiceId ∈ ordered then ordered else ordered ++ [targetServiceId]

def startSteps (serviceId : String) : List OrchestrationStep :=
  [{ kind := .control, serviceId, operation := some .start },
    { kind := .waitForReadiness, serviceId }]

/-- Start the services of an order that do not run, and wait for each. -/
def planStart (snapshots : RuntimeSnapshots) :
    List String → Except OrchestrationError (List OrchestrationStep)
  | [] => .ok []
  | serviceId :: ordered =>
    match snapshots.lookup serviceId with
    -- every candidate has a snapshot
    | none => .error .other
    | some snapshot =>
      match snapshot.state with
      | .running => do
        let steps ← planStart snapshots ordered
        return { kind := .waitForReadiness, serviceId } :: steps
      | .failed | .unknown => .error (.statusFailed serviceId)
      | .stopped => do
        let steps ← planStart snapshots ordered
        return startSteps serviceId ++ steps

/-- Stop the services of an order that are not stopped. -/
def planStop (snapshots : RuntimeSnapshots) :
    List String → Except OrchestrationError (List OrchestrationStep)
  | [] => .ok []
  | serviceId :: ordered =>
    match snapshots.lookup serviceId with
    | none => .error .other
    | some snapshot => do
      let steps ← planStop snapshots ordered
      if snapshot.state = .stopped then return { kind := .control, serviceId } :: steps
      else return { kind := .control, serviceId, operation := some .stop } :: steps

/-- Stop the dependents that are not stopped, restart the target, and start the
dependents again. -/
def planRestart (input : PlanRegisteredServiceOrchestrationInput) :
    Except OrchestrationError (List OrchestrationStep) := do
  let dependents := input.graph.transitiveDependentsOf input.targetServiceId
  if dependents.any fun serviceId => (input.snapshots.lookup serviceId).isNone then
    .error .other
  else
    let activeDependents := dependents.filter fun serviceId =>
      (input.snapshots.lookup serviceId).any (·.state ≠ .stopped)
    let stopOrder := input.graph.topologicalDependentsFirst activeDependents
    let restoreOrder := stopOrder.reverse
    let stops := stopOrder.map fun serviceId =>
      { kind := .control, serviceId, operation := some .stop }
    return stops ++
      [{ kind := .control, serviceId := input.targetServiceId, operation := some .restart },
        { kind := .waitForReadiness, serviceId := input.targetServiceId }] ++
      restoreOrder.flatMap startSteps

/-- `${step.kind}:${step.serviceId}:${step.operation ?? ""}`. -/
def OrchestrationStep.key (step : OrchestrationStep) : String :=
  step.kind.text ++ ":" ++ step.serviceId ++ ":" ++ (step.operation.map (·.text)).getD ""

/-- No step comes twice, and each operation is supported. -/
def validatePlannedOperations (snapshots : RuntimeSnapshots) :
    List String → List OrchestrationStep → Except OrchestrationError Unit
  | _, [] => .ok ()
  | seen, step :: steps =>
    match snapshots.lookup step.serviceId with
    | none => .error .planInvalid
    | some snapshot =>
      if step.key ∈ seen then .error .planInvalid
      else if step.operation.any fun operation =>
          operation.supported ∉ snapshot.supportedOperations then
        .error .planInvalid
      else validatePlannedOperations snapshots (step.key :: seen) steps

def planSteps (input : PlanRegisteredServiceOrchestrationInput) :
    Except OrchestrationError (List OrchestrationStep) :=
  let ordered := getCandidateServiceIds input.targetServiceId input.operation input.graph
  match input.operation with
  | .start => planStart input.snapshots ordered
  | .stop => planStop input.snapshots ordered
  | .restart => planRestart input

/-- `DefaultPlanRegisteredServiceOrchestration.execute`. -/
def planOrchestration (input : PlanRegisteredServiceOrchestrationInput) :
    Except OrchestrationError OrchestrationPlan :=
  let serviceIds := getCandidateServiceIds input.targetServiceId input.operation input.graph
  if !input.graph.hasService input.targetServiceId then .error .planInvalid
  else if serviceIds.any fun serviceId => (input.snapshots.lookup serviceId).isNone then
    .error .planInvalid
  else do
    let steps ← planSteps input
    validatePlannedOperations input.snapshots [] steps
    return {
      targetServiceId := input.targetServiceId
      requestedOperation := input.operation
      steps }

/-! ## What a plan is -/

section Plans

variable {input : PlanRegisteredServiceOrchestrationInput} {snapshots : RuntimeSnapshots}
  {graph : RegisteredServiceDependencyGraph} {steps : List OrchestrationStep}

theorem planOrchestration_ok {plan : OrchestrationPlan} (h : planOrchestration input = .ok plan) :
    plan.targetServiceId = input.targetServiceId ∧ plan.requestedOperation = input.operation ∧
      planSteps input = .ok plan.steps := by
  unfold planOrchestration at h
  dsimp only at h
  split at h
  · simp at h
  · split at h
    · simp at h
    · obtain ⟨steps, hsteps, h⟩ := exists_of_bind_ok h
      obtain ⟨-, -, h⟩ := exists_of_bind_ok h
      cases h
      exact ⟨rfl, rfl, hsteps⟩

/-- The steps for one service of a start. -/
def startStepsFor (snapshots : RuntimeSnapshots) (serviceId : String) : List OrchestrationStep :=
  if (snapshots.lookup serviceId).map (·.state) = some .running then
    [{ kind := .waitForReadiness, serviceId }]
  else startSteps serviceId

theorem planStart_ok {ordered : List String} (h : planStart snapshots ordered = .ok steps) :
    steps = ordered.flatMap (startStepsFor snapshots) ∧
      ∀ id ∈ ordered, ∃ snapshot, snapshots.lookup id = some snapshot ∧
        snapshot.state ≠ .failed ∧ snapshot.state ≠ .unknown := by
  induction ordered generalizing steps with
  | nil => simp_all [planStart]
  | cons id ordered ih =>
      unfold planStart at h
      cases hlookup : snapshots.lookup id with
      | none => simp [hlookup] at h
      | some snapshot =>
          simp only [hlookup] at h
          have hcons : ∀ {rest : List OrchestrationStep}, planStart snapshots ordered = .ok rest →
              snapshot.state ≠ .failed → snapshot.state ≠ .unknown →
              steps = startStepsFor snapshots id ++ rest →
              steps = (id :: ordered).flatMap (startStepsFor snapshots) ∧
                ∀ i ∈ id :: ordered, ∃ snapshot, snapshots.lookup i = some snapshot ∧
                  snapshot.state ≠ .failed ∧ snapshot.state ≠ .unknown := by
            intro rest hrest hfailed hunknown hsteps
            obtain ⟨rfl, hall⟩ := ih hrest
            refine ⟨by rw [hsteps, List.flatMap_cons], ?_⟩
            rintro i (_ | ⟨_, hi⟩)
            · exact ⟨snapshot, hlookup, hfailed, hunknown⟩
            · exact hall i hi
          cases hstate : snapshot.state with
          | running =>
              simp only [hstate] at h
              obtain ⟨rest, hrest, h⟩ := exists_of_bind_ok h
              cases h
              exact hcons hrest (by simp [hstate]) (by simp [hstate])
                (by simp [startStepsFor, hlookup, hstate])
          | stopped =>
              simp only [hstate] at h
              obtain ⟨rest, hrest, h⟩ := exists_of_bind_ok h
              cases h
              exact hcons hrest (by simp [hstate]) (by simp [hstate])
                (by simp [startStepsFor, hlookup, hstate])
          | failed => simp [hstate] at h
          | unknown => simp [hstate] at h

/-- The step for one service of a stop. -/
def stopStepFor (snapshots : RuntimeSnapshots) (serviceId : String) : OrchestrationStep where
  kind := .control
  serviceId
  operation :=
    if (snapshots.lookup serviceId).map (·.state) = some .stopped then none else some .stop

theorem planStop_ok {ordered : List String} (h : planStop snapshots ordered = .ok steps) :
    steps = ordered.map (stopStepFor snapshots) := by
  induction ordered generalizing steps with
  | nil => simp_all [planStop]
  | cons id ordered ih =>
      unfold planStop at h
      cases hlookup : snapshots.lookup id with
      | none => simp [hlookup] at h
      | some snapshot =>
          simp only [hlookup] at h
          obtain ⟨rest, hrest, h⟩ := exists_of_bind_ok h
          rw [ih hrest] at h
          by_cases hstate : snapshot.state = .stopped
          · rw [if_pos hstate] at h
            cases h
            simp [stopStepFor, hlookup, hstate]
          · rw [if_neg hstate] at h
            cases h
            simp [stopStepFor, hlookup, hstate]

/-- A step that waits for a service does nothing else. -/
def OrchestrationStep.WellFormed (step : OrchestrationStep) : Prop :=
  step.kind = .waitForReadiness → step.operation = none

theorem startSteps_wellFormed {serviceId : String} :
    ∀ step ∈ startSteps serviceId, step.WellFormed := by
  simp [startSteps, OrchestrationStep.WellFormed]

theorem planSteps_wellFormed (h : planSteps input = .ok steps) :
    ∀ step ∈ steps, step.WellFormed := by
  unfold planSteps at h
  dsimp only at h
  split at h
  · rw [(planStart_ok h).1]
    intro step hmem
    obtain ⟨id, -, hid⟩ := List.mem_flatMap.mp hmem
    unfold startStepsFor at hid
    split at hid
    · rw [List.mem_singleton.mp hid]
      exact fun _ => rfl
    · exact startSteps_wellFormed step hid
  · rw [planStop_ok h]
    intro step hmem
    obtain ⟨id, -, rfl⟩ := List.mem_map.mp hmem
    exact fun hkind => absurd hkind (by simp [stopStepFor])
  · unfold planRestart at h
    dsimp only at h
    split at h
    · simp at h
    · rw [← Except.ok.inj h]
      intro step hmem
      simp only [List.mem_append, List.mem_map, List.mem_flatMap, List.mem_cons,
        List.not_mem_nil, or_false] at hmem
      rcases hmem with (⟨id, -, rfl⟩ | rfl | rfl) | ⟨id, -, hid⟩
      · exact fun hkind => absurd hkind (by simp)
      · exact fun hkind => absurd hkind (by simp)
      · exact fun _ => rfl
      · exact startSteps_wellFormed step hid

/-! ## The order of the steps -/

end Plans

end AtlasManager.Service
