import AtlasManager.Service.OrchestrationPlan

/-!
# AtlasManager.Service.RestartPlan

What the plan for restarting a service does to the services that depend on it.

* `mem_stopOrder` -- the dependents that the plan stops and starts again;
* `planRestart_exact_iff` -- these are the active ones just when no stopped service
  depends on an active one.
-/

namespace AtlasManager.Service

open AtlasManager.Lib Relation

/-! ## What steps do -/

/-- A restart stops its service and starts it again. -/
def OrchestrationStep.stops (step : OrchestrationStep) : Bool :=
  step.operation = some .stop || step.operation = some .restart

def OrchestrationStep.starts (step : OrchestrationStep) : Bool :=
  step.operation = some .start || step.operation = some .restart

/-- The services that steps stop, in their order. -/
def stoppedServices (steps : List OrchestrationStep) : List String :=
  (steps.filter (·.stops)).map (·.serviceId)

def startedServices (steps : List OrchestrationStep) : List String :=
  (steps.filter (·.starts)).map (·.serviceId)

section Steps

variable {steps steps' : List OrchestrationStep}

@[simp] theorem stoppedServices_append :
    stoppedServices (steps ++ steps') = stoppedServices steps ++ stoppedServices steps' := by
  simp [stoppedServices]

@[simp] theorem startedServices_append :
    startedServices (steps ++ steps') = startedServices steps ++ startedServices steps' := by
  simp [startedServices]

/-- The steps that stop services. -/
def stopSteps (ids : List String) : List OrchestrationStep :=
  ids.map fun serviceId => { kind := .control, serviceId, operation := some .stop }

@[simp] theorem stoppedServices_stopSteps (ids : List String) :
    stoppedServices (stopSteps ids) = ids := by
  induction ids with
  | nil => rfl
  | cons id ids ih =>
      rw [stoppedServices, stopSteps, List.map_cons, List.filter_cons_of_pos (by rfl)]
      exact congrArg (id :: ·) ih

@[simp] theorem startedServices_stopSteps (ids : List String) :
    startedServices (stopSteps ids) = [] := by
  simp [startedServices, stopSteps, OrchestrationStep.starts]

@[simp] theorem stoppedServices_startSteps (ids : List String) :
    stoppedServices (ids.flatMap startSteps) = [] := by
  induction ids with
  | nil => rfl
  | cons id ids ih =>
      rw [List.flatMap_cons, stoppedServices_append, ih]
      rfl

@[simp] theorem startedServices_startSteps (ids : List String) :
    startedServices (ids.flatMap startSteps) = ids := by
  induction ids with
  | nil => rfl
  | cons id ids ih =>
      rw [List.flatMap_cons, startedServices_append, ih]
      rfl

end Steps

/-! ## The plan -/

section Plan

variable {input : PlanRegisteredServiceOrchestrationInput} {steps : List OrchestrationStep}
  {id : String}

/-- Was a service observed to be anything but stopped? -/
def observedActive (input : PlanRegisteredServiceOrchestrationInput) (id : String) : Bool :=
  (input.snapshots.lookup id).any (·.state ≠ .stopped)

/-- A dependent of the target that was observed active. -/
def ActiveDependent (input : PlanRegisteredServiceOrchestrationInput) (id : String) : Prop :=
  input.graph.DependsOn id input.targetServiceId ∧ observedActive input id = true

def activeDependents (input : PlanRegisteredServiceOrchestrationInput) : List String :=
  (input.graph.transitiveDependentsOf input.targetServiceId).filter (observedActive input)

/-- The order in which the plan stops dependents. -/
def stopOrder (input : PlanRegisteredServiceOrchestrationInput) : List String :=
  input.graph.topologicalDependentsFirst (activeDependents input)

def restartSteps (targetServiceId : String) : List OrchestrationStep :=
  [{ kind := .control, serviceId := targetServiceId, operation := some .restart },
    { kind := .waitForReadiness, serviceId := targetServiceId }]

/-- The steps of a restart. -/
def restartPlanSteps (input : PlanRegisteredServiceOrchestrationInput) : List OrchestrationStep :=
  stopSteps (stopOrder input) ++ restartSteps input.targetServiceId ++
    (stopOrder input).reverse.flatMap startSteps

/-- Every dependent of the target was observed. -/
def Observed (input : PlanRegisteredServiceOrchestrationInput) : Prop :=
  ∀ id, input.graph.DependsOn id input.targetServiceId → (input.snapshots.lookup id).isSome = true

/-- Where all dependents were observed, there is a plan. -/
theorem planRestart_eq (h : Observed input) :
    planRestart input = .ok (restartPlanSteps input) := by
  unfold planRestart
  dsimp only
  rw [if_neg]
  · rfl
  · simp only [List.any_eq_true, not_exists, not_and, Option.isNone_iff_eq_none]
    intro id hid hnone
    have hsome := h id ((input.graph.mem_transitiveDependentsOf _ _).mp hid)
    rw [hnone] at hsome
    cases hsome

theorem mem_activeDependents : id ∈ activeDependents input ↔ ActiveDependent input id := by
  rw [activeDependents, List.mem_filter, input.graph.mem_transitiveDependentsOf]
  rfl

/-- **What is stopped**: the active dependents, and all that depends on one of them. -/
theorem mem_stopOrder : id ∈ stopOrder input ↔ ActiveDependent input id ∨
    ∃ active, ActiveDependent input active ∧ input.graph.DependsOn id active := by
  rw [stopOrder, RegisteredServiceDependencyGraph.topologicalDependentsFirst,
    (input.graph.topologicalSort_perm _ _).mem_iff, input.graph.mem_sortClosure,
    input.graph.edge_dependents]
  simp only [mem_activeDependents, transGen_swap]
  rfl

theorem dependsOn_of_mem_stopOrder (h : id ∈ stopOrder input) :
    input.graph.DependsOn id input.targetServiceId := by
  rcases mem_stopOrder.mp h with hactive | ⟨active, hactive, hdepends⟩
  · exact hactive.1
  · exact hdepends.trans hactive.1

theorem stopOrder_pairwise :
    (stopOrder input ++ [input.targetServiceId]).Pairwise fun a b => ¬ input.graph.DependsOn b a := by
  rw [List.pairwise_append]
  refine ⟨input.graph.topologicalDependentsFirst_pairwise _, List.pairwise_singleton _ _, ?_⟩
  intro a ha b hb hdepends
  rw [List.mem_singleton] at hb
  rw [hb] at hdepends
  exact input.graph.not_dependsOn_self _ (hdepends.trans (dependsOn_of_mem_stopOrder ha))

theorem stopOrder_nodup : (stopOrder input ++ [input.targetServiceId]).Nodup := by
  rw [List.nodup_append]
  have horder : (stopOrder input).Nodup := input.graph.topologicalSort_nodup (activeDependents input) .dependents
  refine ⟨horder, List.nodup_singleton _, ?_⟩
  intro a ha b hb hsame
  rw [List.mem_singleton] at hb
  rw [hsame, hb] at ha
  exact input.graph.not_dependsOn_self _ (dependsOn_of_mem_stopOrder ha)

/-! ## When it stops just the active ones -/

/-- The steps stop the target and its active dependents and start them again, each once and
in the orders of the dependencies. -/
structure RestartsExactly (input : PlanRegisteredServiceOrchestrationInput)
    (steps : List OrchestrationStep) : Prop where
  stops : ∀ id, id ∈ stoppedServices steps ↔ id = input.targetServiceId ∨ ActiveDependent input id
  starts : ∀ id, id ∈ startedServices steps ↔ id = input.targetServiceId ∨ ActiveDependent input id
  stopsOnce : (stoppedServices steps).Nodup
  startsOnce : (startedServices steps).Nodup
  stopsDependentsFirst :
    (stoppedServices steps).Pairwise fun a b => ¬ input.graph.DependsOn b a
  startsDependenciesFirst :
    (startedServices steps).Pairwise fun a b => ¬ input.graph.DependsOn a b
  /-- Nothing is started before everything has been stopped. -/
  apart : ∃ before restart after, steps = before ++ restart :: after ∧
    restart.serviceId = input.targetServiceId ∧ restart.operation = some .restart ∧
    startedServices before = [] ∧ stoppedServices after = []

/-- No service that was observed stopped depends on an active dependent. -/
def ActiveDependentsClosed (input : PlanRegisteredServiceOrchestrationInput) : Prop :=
  ∀ active id, ActiveDependent input active → input.graph.DependsOn id active →
    observedActive input id = true

theorem stoppedServices_restartPlanSteps :
    stoppedServices (restartPlanSteps input) = stopOrder input ++ [input.targetServiceId] := by
  rw [restartPlanSteps, stoppedServices_append, stoppedServices_append, stoppedServices_stopSteps,
    stoppedServices_startSteps, List.append_nil]
  rfl

theorem startedServices_restartPlanSteps :
    startedServices (restartPlanSteps input) = (stopOrder input ++ [input.targetServiceId]).reverse := by
  rw [restartPlanSteps, startedServices_append, startedServices_append, startedServices_stopSteps,
    startedServices_startSteps, List.reverse_append]
  rfl

/-- A plan that is exact stops no service behind an active one that is not active itself. -/
theorem activeDependentsClosed_of_exact (h : RestartsExactly input (restartPlanSteps input)) :
    ActiveDependentsClosed input := by
  intro active id hactive hdepends
  have hmem : id ∈ stopOrder input := mem_stopOrder.mpr (.inr ⟨active, hactive, hdepends⟩)
  have hstops := (h.stops id).mp (by
    rw [stoppedServices_restartPlanSteps]
    exact List.mem_append_left _ hmem)
  rcases hstops with htarget | hactive
  · -- the target does not depend on its dependents
    rw [htarget] at hmem
    exact absurd (dependsOn_of_mem_stopOrder hmem) (input.graph.not_dependsOn_self _)
  · exact hactive.2

theorem exact_of_activeDependentsClosed (hclosed : ActiveDependentsClosed input) :
    RestartsExactly input (restartPlanSteps input) := by
  have hmem : ∀ id, id ∈ stopOrder input ++ [input.targetServiceId] ↔
      id = input.targetServiceId ∨ ActiveDependent input id := by
    intro id
    rw [List.mem_append, List.mem_singleton, or_comm, mem_stopOrder]
    constructor
    · rintro (htarget | hactive | ⟨active, hactive, hdepends⟩)
      · exact .inl htarget
      · exact .inr hactive
      · exact .inr ⟨hdepends.trans hactive.1, hclosed active id hactive hdepends⟩
    · rintro (htarget | hactive)
      · exact .inl htarget
      · exact .inr (.inl hactive)
  refine ⟨?_, ?_, ?_, ?_, ?_, ?_, ?_⟩
  · rw [stoppedServices_restartPlanSteps]
    exact hmem
  · intro id
    rw [startedServices_restartPlanSteps, List.mem_reverse]
    exact hmem id
  · rw [stoppedServices_restartPlanSteps]
    exact stopOrder_nodup
  · rw [startedServices_restartPlanSteps, List.nodup_reverse]
    exact stopOrder_nodup
  · rw [stoppedServices_restartPlanSteps]
    exact stopOrder_pairwise
  · rw [startedServices_restartPlanSteps, List.pairwise_reverse]
    exact stopOrder_pairwise
  · refine ⟨stopSteps (stopOrder input), _, _, by rw [restartPlanSteps, List.append_assoc]; rfl,
      rfl, rfl, startedServices_stopSteps _, ?_⟩
    have hafter := stoppedServices_startSteps (stopOrder input).reverse
    simpa [stoppedServices, OrchestrationStep.stops] using hafter

/-- **A restart stops the active dependents only** just when no stopped service depends on
one of them. -/
theorem planRestart_exact_iff (input : PlanRegisteredServiceOrchestrationInput)
    (hrestart : input.operation = .restart) (hobserved : Observed input) :
    ∃ steps, planSteps input = .ok steps ∧
      (RestartsExactly input steps ↔ ActiveDependentsClosed input) := by
  refine ⟨restartPlanSteps input, ?_, activeDependentsClosed_of_exact,
    exact_of_activeDependentsClosed⟩
  rw [planSteps, hrestart]
  exact planRestart_eq hobserved

/-- A report behind a worker behind an API: the snapshots of the three. -/
private def threeSnapshots (report : ServiceRuntimeState) : RuntimeSnapshots :=
  [("api", ⟨"api", .running, [.start, .stop, .restart]⟩),
    ("worker", ⟨"worker", .running, [.start, .stop, .restart]⟩),
    ("report", ⟨"report", report, [.start, .stop, .restart]⟩)]

private def threeEntries : List DependencyEntry :=
  [{ serviceId := "api", dependencies := [] }, { serviceId := "worker", dependencies := ["api"] },
    { serviceId := "report", dependencies := ["worker"] }]

private theorem exists_threeServices (report : ServiceRuntimeState) :
    ∃ input : PlanRegisteredServiceOrchestrationInput,
      input.operation = .restart ∧ Observed input ∧ input.snapshots = threeSnapshots report ∧
        ActiveDependent input "worker" ∧ input.graph.DependsOn "report" "worker" := by
  obtain ⟨graph, hok, hnodes⟩ := createDependencyGraph_eq_ok threeEntries (by decide) (by decide)
    (by decide)
  have hdeclares : ∀ a b, Declares threeEntries a b ↔
      (a = "worker" ∧ b = "api") ∨ (a = "report" ∧ b = "worker") := by
    intro a b
    simp [Declares, threeEntries, @eq_comm _ _ a]
  refine ⟨⟨"api", .restart, graph, threeSnapshots report⟩, rfl, ?_, rfl, ⟨?_, rfl⟩, ?_⟩
  · intro id hdepends
    rw [dependsOn_iff hok] at hdepends
    rcases TransGen.head'_iff.mp hdepends with ⟨next, hfirst, _⟩
    rcases (hdeclares id next).mp hfirst with ⟨rfl, _⟩ | ⟨rfl, _⟩
    · rfl
    · rfl
  · exact (dependsOn_iff hok).mpr (.single ((hdeclares _ _).mpr (.inl ⟨rfl, rfl⟩)))
  · exact (dependsOn_iff hok).mpr (.single ((hdeclares _ _).mpr (.inr ⟨rfl, rfl⟩)))

theorem planRestart_exact_iff_three_running :
    ∃ input : PlanRegisteredServiceOrchestrationInput, ∃ steps, planSteps input = .ok steps ∧
      (RestartsExactly input steps ↔ ActiveDependentsClosed input) ∧
        ActiveDependent input "worker" := by
  obtain ⟨input, hrestart, hobserved, _, hworker, _⟩ := exists_threeServices .running
  obtain ⟨steps, hsteps, hiff⟩ := planRestart_exact_iff input hrestart hobserved
  exact ⟨input, steps, hsteps, hiff, hworker⟩

/-- A stopped service behind an active one is stopped and started by the plan. -/
theorem planRestart_starts_stopped :
    ¬ ∀ (input : PlanRegisteredServiceOrchestrationInput) (steps : List OrchestrationStep),
      input.operation = .restart → Observed input → planSteps input = .ok steps →
        RestartsExactly input steps := by
  intro hclaim
  obtain ⟨input, hrestart, hobserved, hsnapshots, hworker, hdepends⟩ := exists_threeServices .stopped
  have hplan : planSteps input = .ok (restartPlanSteps input) := by
    rw [planSteps, hrestart]
    exact planRestart_eq hobserved
  have hclosed := activeDependentsClosed_of_exact (hclaim input _ hrestart hobserved hplan)
  have hreport := hclosed "worker" "report" hworker hdepends
  rw [observedActive, hsnapshots] at hreport
  revert hreport
  decide

end Plan

end AtlasManager.Service
