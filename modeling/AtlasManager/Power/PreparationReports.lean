import AtlasManager.Power.ControllerAnswers

/-!
# AtlasManager.Power.PreparationReports

When a preparation comes to a report, and what a report says that the machine
is prepared.

* `prepareAt_reports_iff` -- a preparation ends with a report exactly when the
  controllers that were called answered acceptably and the controller of the
  services was there if it was needed;
* `prepareAt_throws` -- a controller of the services that throws.
-/

namespace AtlasManager.Power

open AtlasManager.Lib AtlasManager.Service

/-! ## What a run should show -/

/-- The answers of controllers from which the result of a step can be made. -/
def Accepted : (call : PowerCall) →
    Except MachineShutdownOccurrenceExecutionFailure (PowerAnswer call) → Prop
  | .prepareServices _ _ serviceIds, answer =>
    ∃ result items successful steps, answer = .ok result ∧
      result.member? "steps" = some (.arr items) ∧
      result.member? "successful" = some successful ∧
      AcceptsServices serviceIds items successful steps
  | .drain _ _, answer => ∀ result, answer = .ok result → AcceptsState .drainActiveTasks result
  | .complete _ _, answer => ∀ result, answer = .ok result → AcceptsState .completeBackup result
  | .synchronize _ _, answer =>
    ∀ result, answer = .ok result → AcceptsState .synchronizeFilesystem result
  | _, _ => True

/-- The recorder has taken an event. -/
def Started (log : PowerLog) : Prop := ∃ value answer, ⟨.record value, .ok answer⟩ ∈ log

/-- Every controller that was called answered acceptably, and the controller of
the services was not missing when its step was reached. -/
structure ControllersComply (services : Bool) (decision : MachineShutdownReadinessDecision)
    (log : PowerLog) : Prop where
  accepted : ∀ event ∈ log, Accepted event.call event.answer
  present : (∃ blocker ∈ decision.blockers, blocker.code = .serviceRunning) → Started log →
    services = true

/-- What the controller of a state answered. -/
inductive StateAnswer : MachineShutdownPreparationStep → JsValue →
    Prog.Event PowerCall PowerAnswer MachineShutdownOccurrenceExecutionFailure → Prop where
  | drain {occurrence requestedAt result} :
    StateAnswer .drainActiveTasks result ⟨.drain occurrence requestedAt, .ok result⟩
  | complete {occurrence requestedAt result} :
    StateAnswer .completeBackup result ⟨.complete occurrence requestedAt, .ok result⟩
  | synchronize {occurrence requestedAt result} :
    StateAnswer .synchronizeFilesystem result ⟨.synchronize occurrence requestedAt, .ok result⟩

/-- A step was completed, or was skipped because its controller reported an
outcome that the step accepts. -/
def StepDone (log : PowerLog) (step : MachineShutdownPreparationStepResult) : Prop :=
  step.outcome = .completed ∨
    step.outcome = .skipped ∧ ∃ event ∈ log, ∃ result value,
      StateAnswer step.kind result event ∧ result.member? "outcome" = some value ∧
      isOutcomeAccepted step.kind value = true ∧ step.detail = some (.outcome value)

/-- The machine is prepared: readiness was evaluated again and approved, and
every step of the plan was done. -/
structure ProperlyPrepared (report : MachineShutdownPreparationReport) (log : PowerLog) : Prop where
  approved : ∃ final, report.finalDecision = some final ∧ final.outcome = .approved ∧
    ⟨.decided final, .ok ()⟩ ∈ log
  covered : ∃ plan, report.plan = some plan ∧
    report.steps.map (·.kind) = plan.steps.filter (· ≠ .recordPreparationStarted)
  done : ∀ step ∈ report.steps, StepDone log step

/-- A preparation ends with a report, which says `prepared` only with reason. -/
def ReportsPreparation
    (outcome : Except MachineShutdownOccurrenceExecutionFailure MachineShutdownPreparationReport)
    (log : PowerLog) : Prop :=
  ∃ report, outcome = .ok report ∧ (report.outcome = .prepared → ProperlyPrepared report log)

/-! ## Reports that pass their check -/

section Reports

variable {occurrence : MachineShutdownOccurrence} {processedAt : Timestamp}
  {decision : MachineShutdownReadinessDecision}

/-- The plan of a decision that is rejected. -/
def planOf (decision : MachineShutdownReadinessDecision) : MachineShutdownPreparationPlan where
  occurrence := decision.occurrence
  plannedAt := decision.evaluatedAt
  initialDecision := decision
  steps := stepsFor decision.blockers

/-- Events that may be recorded before the final decision: numbered from 1, begun
by the start. -/
structure EventsSoFar (decision : MachineShutdownReadinessDecision)
    (events : List MachineShutdownPreparationEvent) : Prop where
  numbered : ∀ event index, (event, index) ∈ events.zipIdx → event.sequence = index + 1 ∧
    event.occurredAt = decision.evaluatedAt ∧ event.occurrence = decision.occurrence
  started : ∀ event ∈ events.head?, event.kind = .preparationStarted
  undecided : ∀ event ∈ events, MachineShutdownPreparationReport.isFinal event = false

theorem EventsSoFar.nil : EventsSoFar decision [] :=
  ⟨fun _ _ h => (by simp at h), fun _ h => by simp at h, fun _ h => by simp at h⟩

theorem numbered_append {events : List MachineShutdownPreparationEvent}
    {value : MachineShutdownPreparationEvent} (h : EventsSoFar decision events)
    (hsequence : value.sequence = events.length + 1)
    (hoccurred : value.occurredAt = decision.evaluatedAt)
    (hoccurrence : value.occurrence = decision.occurrence) :
    ∀ event index, (event, index) ∈ (events ++ [value]).zipIdx → event.sequence = index + 1 ∧
      event.occurredAt = decision.evaluatedAt ∧ event.occurrence = decision.occurrence := by
  intro event index hmem
  rw [List.zipIdx_append, List.mem_append] at hmem
  rcases hmem with hmem | hmem
  · exact h.numbered event index hmem
  · obtain ⟨rfl, rfl⟩ : event = value ∧ index = events.length := by simpa using hmem
    exact ⟨hsequence, hoccurred, hoccurrence⟩

theorem started_append {events : List MachineShutdownPreparationEvent}
    {value : MachineShutdownPreparationEvent} (h : EventsSoFar decision events)
    (hkind : events = [] → value.kind = .preparationStarted) :
    ∀ event ∈ (events ++ [value]).head?, event.kind = .preparationStarted := by
  cases events with
  | nil => simpa using hkind
  | cons first rest => simpa using h.started

theorem EventsSoFar.append {events : List MachineShutdownPreparationEvent}
    {value : MachineShutdownPreparationEvent} (h : EventsSoFar decision events)
    (hsequence : value.sequence = events.length + 1)
    (hoccurred : value.occurredAt = decision.evaluatedAt)
    (hoccurrence : value.occurrence = decision.occurrence)
    (hkind : events = [] → value.kind = .preparationStarted)
    (hundecided : MachineShutdownPreparationReport.isFinal value = false) :
    EventsSoFar decision (events ++ [value]) where
  numbered := numbered_append h hsequence hoccurred hoccurrence
  started := started_append h hkind
  undecided := by
    intro event hmem
    rcases List.mem_append.mp hmem with hmem | hmem
    · exact h.undecided event hmem
    · rwa [List.mem_singleton.mp hmem]

/-- The controllers' steps of a plan are followed by those that only record. -/
theorem stepsFor_filter (blockers : List MachineShutdownReadinessBlocker) :
    (stepsFor blockers).filter (· ≠ .recordPreparationStarted) =
      (stepsFor blockers).filter (!·.isRecord) ++
        [.recordPreparationCompleted, .reevaluateReadiness, .recordFinalReadiness] := by
  have hone : ∀ (c : Bool) (kind : MachineShutdownPreparationStep), kind.isRecord = false →
      (if c then [kind] else []).filter (· ≠ .recordPreparationStarted) =
        (if c then [kind] else []).filter (!·.isRecord) := by
    intro c kind hkind
    cases c
    · rfl
    · have hne : kind ≠ .recordPreparationStarted := by
        rintro rfl
        cases hkind
      simp [hkind, hne]
  simp only [stepsFor, List.filter_append]
  rw [hone _ _ rfl, hone _ _ rfl, hone _ _ rfl, hone _ _ rfl]
  simp [MachineShutdownPreparationStep.isRecord]

/-- The parts of a report that agree with the decision. -/
structure PartsAgree (decision : MachineShutdownReadinessDecision)
    (report : MachineShutdownPreparationReport) : Prop where
  occurrence : report.occurrence = decision.occurrence
  processedAt : report.processedAt = decision.evaluatedAt
  initial : report.initialDecision = decision
  rejected : decision.outcome = .rejected
  plan : report.plan = some (planOf decision)
  steps : report.steps.map (·.kind) <+:
    (stepsFor decision.blockers).filter (· ≠ .recordPreparationStarted)
  final : ∀ final ∈ report.finalDecision, final.evaluatedAt = decision.evaluatedAt ∧
    final.occurrence = decision.occurrence

theorem PartsAgree.isConsistent {report : MachineShutdownPreparationReport}
    (h : PartsAgree decision report) : report.isConsistent = true := by
  have hfinal := h.final
  cases hdecision : report.finalDecision with
  | none =>
      simp [MachineShutdownPreparationReport.isConsistent, h.occurrence, h.processedAt, h.initial,
        h.plan, planOf, hdecision]
  | some final =>
      obtain ⟨hevaluated, hoccurrence⟩ := hfinal final hdecision
      simp [MachineShutdownPreparationReport.isConsistent, h.occurrence, h.processedAt, h.initial,
        h.plan, planOf, hdecision, hevaluated, hoccurrence]

theorem PartsAgree.hasValidSteps {report : MachineShutdownPreparationReport}
    (h : PartsAgree decision report) : report.hasValidSteps = true := by
  rw [MachineShutdownPreparationReport.hasValidSteps, h.plan]
  exact List.isPrefixOf_iff_prefix.mpr h.steps

theorem hasValidEvents_iff {report : MachineShutdownPreparationReport}
    (h : PartsAgree decision report) :
    report.hasValidEvents = true ↔
      (∀ event index, (event, index) ∈ report.events.zipIdx → event.sequence = index + 1 ∧
        event.occurredAt = decision.evaluatedAt ∧ event.occurrence = decision.occurrence) ∧
      (∀ event ∈ report.events.head?, event.kind = .preparationStarted) ∧
      (report.events.filter MachineShutdownPreparationReport.isFinal).length ≤ 1 := by
  have hhead : (report.events.head?.all fun event => event.kind = .preparationStarted) = true ↔
      ∀ event ∈ report.events.head?, event.kind = .preparationStarted := by
    cases report.events.head? <;> simp
  simp only [MachineShutdownPreparationReport.hasValidEvents, h.occurrence, h.processedAt,
    decide_eq_true_eq, hhead, List.all_eq_true, Prod.forall]

/-- A preparation that ends early has a report. -/
theorem createReport_incomplete {report : MachineShutdownPreparationReport}
    (h : PartsAgree decision report) (hevents : EventsSoFar decision report.events)
    (houtcome : report.outcome = .incomplete) :
    createMachineShutdownPreparationReport report = some report := by
  have hundecided : report.events.filter MachineShutdownPreparationReport.isFinal = [] := by
    rw [List.filter_eq_nil_iff]
    intro event hmem
    rw [hevents.undecided event hmem]
    exact Bool.false_ne_true
  have hvalid : report.hasValidEvents = true := by
    rw [hasValidEvents_iff h, hundecided]
    exact ⟨hevents.numbered, hevents.started, Nat.zero_le 1⟩
  have hnotFinal : ∀ event ∈ report.events,
      event.kind ≠ .finalReadinessApproved ∧ event.kind ≠ .finalReadinessRejected := by
    intro event hmem
    simpa [MachineShutdownPreparationReport.isFinal] using hevents.undecided event hmem
  have hlast : report.events.getLast?.map (·.kind) ≠ some .finalReadinessApproved := by
    intro hlast
    obtain ⟨event, hevent, hkind⟩ := Option.map_eq_some_iff.mp hlast
    exact (hnotFinal event (List.mem_of_getLast? hevent)).1 hkind
  have hnone : report.events.any (·.kind = .finalReadinessRejected) = false := by
    rw [List.any_eq_false]
    intro event hmem hkind
    exact (hnotFinal event hmem).2 (of_decide_eq_true hkind)
  have hfinal : report.hasValidOutcome = true := by
    simp only [MachineShutdownPreparationReport.hasValidOutcome, houtcome, h.initial, h.rejected,
      h.plan, hnone, hlast, and_false, Bool.false_eq_true, not_false_eq_true, ne_eq, reduceCtorEq,
      and_self, decide_true]
  rw [createMachineShutdownPreparationReport, if_pos]
  exact ⟨h.isConsistent, hvalid, h.hasValidSteps, hfinal⟩

/-- The report about a final decision that has been recorded. -/
theorem createReport_final {report : MachineShutdownPreparationReport}
    (h : PartsAgree decision report) {events : List MachineShutdownPreparationEvent}
    {value : MachineShutdownPreparationEvent} (hevents : report.events = events ++ [value])
    (hsofar : EventsSoFar decision events) (hnonempty : events ≠ [])
    (hsequence : value.sequence = events.length + 1)
    (hoccurred : value.occurredAt = decision.evaluatedAt)
    (hoccurrence : value.occurrence = decision.occurrence)
    {final : MachineShutdownReadinessDecision} (hfinal : report.finalDecision = some final)
    (hkind : value.kind = (finalEvent final).1)
    (hlast : report.steps.getLast?.map (·.kind) = some .recordFinalReadiness)
    (houtcome : report.outcome = if final.outcome = .approved then .prepared else .incomplete) :
    createMachineShutdownPreparationReport report = some report := by
  have hundecided : events.filter MachineShutdownPreparationReport.isFinal = [] := by
    rw [List.filter_eq_nil_iff]
    intro event hmem
    rw [hsofar.undecided event hmem]
    exact Bool.false_ne_true
  have hvalid : report.hasValidEvents = true := by
    rw [hasValidEvents_iff h, hevents, List.filter_append, hundecided, List.nil_append]
    exact ⟨numbered_append hsofar hsequence hoccurred hoccurrence,
      started_append hsofar fun hnil => absurd hnil hnonempty, List.length_filter_le _ _⟩
  have hlastEvent : report.events.getLast?.map (·.kind) = some (finalEvent final).1 := by
    rw [hevents, List.getLast?_concat, Option.map_some, hkind]
  have hvalidOutcome : report.hasValidOutcome = true := by
    cases hdecided : final.outcome with
    | approved =>
        rw [hdecided, if_pos rfl] at houtcome
        simp only [finalEvent, hdecided] at hlastEvent
        simp only [MachineShutdownPreparationReport.hasValidOutcome, houtcome, h.initial, h.rejected,
          h.plan, hfinal, Option.map_some, hdecided, hlastEvent, hlast, ne_eq, reduceCtorEq,
          not_false_eq_true, and_self, decide_true]
    | rejected =>
        rw [hdecided, if_neg (by simp)] at houtcome
        simp only [finalEvent, hdecided] at hlastEvent
        simp only [MachineShutdownPreparationReport.hasValidOutcome, houtcome, h.initial, h.rejected,
          h.plan, hfinal, Option.map_some, hdecided, hlastEvent, ne_eq, reduceCtorEq,
          Option.some.injEq, not_true_eq_false, false_and, and_false, not_false_eq_true, and_self,
          decide_true]
  rw [createMachineShutdownPreparationReport, if_pos]
  exact ⟨h.isConsistent, hvalid, h.hasValidSteps, hvalidOutcome⟩

/-- The report about a decision that a preparation cannot change. -/
def blockedReport (decision : MachineShutdownReadinessDecision) :
    MachineShutdownPreparationReport where
  occurrence := decision.occurrence
  processedAt := decision.evaluatedAt
  initialDecision := decision
  plan := none
  steps := []
  events := []
  finalDecision := none
  outcome := .blocked

theorem createReport_blocked (hrejected : decision.outcome = .rejected) :
    createMachineShutdownPreparationReport (blockedReport decision) =
      some (blockedReport decision) := by
  simp [createMachineShutdownPreparationReport, MachineShutdownPreparationReport.isConsistent,
    MachineShutdownPreparationReport.hasValidEvents,
    MachineShutdownPreparationReport.hasValidSteps,
    MachineShutdownPreparationReport.hasValidOutcome, blockedReport, hrejected]

end Reports

/-! ## What a run leaves -/

section Runs

variable {localeCompare : LocaleCompare} {services : Bool}
  {decision : MachineShutdownReadinessDecision} {log log' : PowerLog}

/-- An assertion about the runs in which the ports answer anything. -/
abbrev Runs {α : Type} (program : PowerProg α)
    (Q : Except MachineShutdownOccurrenceExecutionFailure α → PowerLog → Prop) (log : PowerLog) :
    Prop :=
  Prog.Spec (Prog.logged (Answers fun _ => True)) (fun _ => True) program Q log

theorem Runs.bind {α β : Type} {program : PowerProg α} {rest : α → PowerProg β}
    {Q : Except MachineShutdownOccurrenceExecutionFailure β → PowerLog → Prop}
    (h : Runs program (fun
      | .ok a, log' => Runs (rest a) Q log'
      | .error e, log' => Q (.error e) log') log) : Runs (program >>= rest) Q log := by
  rw [Runs, Prog.spec_bind]
  refine h.mono (fun _ h => h) ?_
  rintro (e | a) log' h <;> exact h

/-- Every controller has answered acceptably so far. -/
def Clean (log : PowerLog) : Prop := ∀ event ∈ log, Accepted event.call event.answer

theorem Clean.cons {call : PowerCall}
    {answer : Except MachineShutdownOccurrenceExecutionFailure (PowerAnswer call)} :
    Clean (⟨call, answer⟩ :: log) ↔ Accepted call answer ∧ Clean log := List.forall_mem_cons

/-- Only the recorder has been called since. -/
def Recorded (log log' : PowerLog) : Prop :=
  ∃ calls, log' = calls ++ log ∧ ∀ event ∈ calls, ∃ value answer, event = ⟨.record value, answer⟩

theorem Recorded.refl : Recorded log log := ⟨[], rfl, fun _ h => by cases h⟩

theorem Recorded.record {value : MachineShutdownPreparationEvent}
    {answer : Except MachineShutdownOccurrenceExecutionFailure JsValue} (h : Recorded log log') :
    Recorded log (⟨.record value, answer⟩ :: log') := by
  obtain ⟨calls, rfl, hcalls⟩ := h
  exact ⟨_ :: calls, rfl, List.forall_mem_cons.mpr ⟨⟨value, answer, rfl⟩, hcalls⟩⟩

theorem Recorded.subset (h : Recorded log log') : log ⊆ log' := by
  obtain ⟨calls, rfl, -⟩ := h
  exact List.subset_append_right _ _

theorem Recorded.clean (h : Recorded log log') (hlog : Clean log) : Clean log' := by
  obtain ⟨calls, rfl, hcalls⟩ := h
  intro event hmem
  rcases List.mem_append.mp hmem with hmem | hmem
  · obtain ⟨value, answer, rfl⟩ := hcalls event hmem
    trivial
  · exact hlog event hmem

theorem Started.subset (h : Started log) (hsubset : log ⊆ log') : Started log' := by
  obtain ⟨value, answer, hmem⟩ := h
  exact ⟨value, answer, hsubset hmem⟩

theorem StepDone.subset {step : MachineShutdownPreparationStepResult} (h : StepDone log step)
    (hsubset : log ⊆ log') : StepDone log' step := by
  rcases h with h | ⟨h, event, hmem, hanswer⟩
  · exact .inl h
  · exact .inr ⟨h, event, hsubset hmem, hanswer⟩

/-! ### Recording -/

theorem createMachineShutdownPreparationEvent_some {sequence : Nat}
    {kind : MachineShutdownPreparationEventKind} {occurrence : MachineShutdownOccurrence}
    {occurredAt : Timestamp} {detail : List (String × JsValue)}
    {value : MachineShutdownPreparationEvent}
    (h : createMachineShutdownPreparationEvent sequence kind occurrence occurredAt detail =
      some value) :
    value.sequence = sequence ∧ value.kind = kind ∧ value.occurrence = occurrence ∧
      value.occurredAt = occurredAt := by
  simp only [createMachineShutdownPreparationEvent, Option.bind_eq_bind,
    Option.bind_eq_some_iff] at h
  obtain ⟨-, -, -, -, -, -, h⟩ := h
  obtain rfl := Option.some.inj h
  exact ⟨rfl, rfl, rfl, rfl⟩

/-- The rule for recording an event. -/
theorem recordEvent_runs {occurrence : MachineShutdownOccurrence} {processedAt : Timestamp}
    {events : List MachineShutdownPreparationEvent} {kind : MachineShutdownPreparationEventKind}
    {detail : List (String × JsValue)}
    {Q : Except MachineShutdownOccurrenceExecutionFailure
      (Option (List MachineShutdownPreparationEvent)) → PowerLog → Prop}
    (hsome : ∀ value answer, createMachineShutdownPreparationEvent (events.length + 1) kind
        occurrence processedAt detail = some value →
      Q (.ok (some (events ++ [value]))) (⟨.record value, .ok answer⟩ :: log))
    (hrefused : Q (.ok none) log)
    (herror : ∀ value error, Q (.ok none) (⟨.record value, .error error⟩ :: log)) :
    Runs (recordEvent occurrence processedAt events kind detail) Q log := by
  simp only [Runs, recordEvent, Prog.spec_bind, Prog.spec_attempt]
  cases hvalue : createMachineShutdownPreparationEvent (events.length + 1) kind occurrence
    processedAt detail with
  | none => exact hrefused
  | some value =>
      simp only [required, Prog.spec_pure']
      rw [ask, Prog.spec_perform]
      rintro answer log' ⟨-, rfl⟩
      refine ⟨trivial, ?_⟩
      cases answer with
      | ok answer => exact hsome value answer hvalue
      | error error => exact herror value error

theorem recordFailure_runs {events : List MachineShutdownPreparationEvent}
    {step : MachineShutdownPreparationStep} {code : String}
    {Q : Except MachineShutdownOccurrenceExecutionFailure
      (List MachineShutdownPreparationEvent) → PowerLog → Prop}
    (hevents : EventsSoFar decision events) (hnonempty : events ≠ [])
    (h : ∀ events log', EventsSoFar decision events → Recorded log log' → Q (.ok events) log') :
    Runs (recordFailure decision.occurrence decision.evaluatedAt events step code) Q log := by
  rw [recordFailure, Runs, Prog.spec_bind]
  refine recordEvent_runs (fun value answer hvalue => ?_) (h _ _ hevents .refl)
    fun value error => h _ _ hevents (Recorded.refl.record)
  obtain ⟨hsequence, hkind, hoccurrence, hoccurred⟩ :=
    createMachineShutdownPreparationEvent_some hvalue
  refine h _ _ (hevents.append hsequence hoccurred hoccurrence
    (fun hnil => absurd hnil hnonempty) ?_) Recorded.refl.record
  rw [MachineShutdownPreparationReport.isFinal, hkind]
  rfl

/-! ### The controllers -/

/-- What a step comes to, and the world after its controller was called. -/
inductive Taken (services : Bool) (decision : MachineShutdownReadinessDecision) (log : PowerLog) :
    MachineShutdownPreparationStep → StepEffect → PowerLog → Prop where
  | missing : services = false → Taken services decision log .stopRegisteredServices
      ⟨.failed, [("failureCode", .str "service_stop_failed")]⟩ log
  | services answer : services = true → Taken services decision log .stopRegisteredServices
      (effectFrom (serviceEffect (serviceIdsToStop decision)) answer)
      (⟨.prepareServices decision.occurrence decision.evaluatedAt (serviceIdsToStop decision),
        answer⟩ :: log)
  | drain answer : Taken services decision log .drainActiveTasks
      (effectFrom (stateEffect .drainActiveTasks) answer)
      (⟨.drain decision.occurrence decision.evaluatedAt, answer⟩ :: log)
  | complete answer : Taken services decision log .completeBackup
      (effectFrom (stateEffect .completeBackup) answer)
      (⟨.complete decision.occurrence decision.evaluatedAt, answer⟩ :: log)
  | synchronize answer : Taken services decision log .synchronizeFilesystem
      (effectFrom (stateEffect .synchronizeFilesystem) answer)
      (⟨.synchronize decision.occurrence decision.evaluatedAt, answer⟩ :: log)

/-- The rule for asking a controller. -/
theorem asked_runs {call : PowerCall} {read : PowerAnswer call → Option StepEffect}
    {Q : Except MachineShutdownOccurrenceExecutionFailure
      (Except MachineShutdownOccurrenceExecutionFailure StepEffect) → PowerLog → Prop}
    (h : ∀ answer tried, effectOf tried = (match answer with
      | .ok result => (read result).getD dependencyFailed
      | .error _ => dependencyFailed) → Q (.ok tried) (⟨call, answer⟩ :: log)) :
    Runs (Prog.attempt do
      let result ← ask call
      required (read result)) Q log := by
  rw [Runs, Prog.spec_attempt, Prog.spec_bind, ask, Prog.spec_perform]
  rintro answer log' ⟨-, rfl⟩
  refine ⟨trivial, ?_⟩
  cases answer with
  | error e => exact h _ _ rfl
  | ok result =>
      dsimp only
      cases hread : read result with
      | none => exact h _ _ (by simp only [hread]; rfl)
      | some effect => exact h _ _ (by simp only [hread]; rfl)

theorem stepEffect_runs {kind : MachineShutdownPreparationStep} (hkind : kind.isRecord = false)
    {Q : Except MachineShutdownOccurrenceExecutionFailure
      (Except MachineShutdownOccurrenceExecutionFailure StepEffect) → PowerLog → Prop}
    (h : ∀ tried log', Taken services decision log kind (effectOf tried) log' →
      Q (.ok tried) log') :
    Runs (stepEffect services decision.occurrence decision.evaluatedAt decision kind).attempt Q
      log := by
  cases kind with
  | stopRegisteredServices =>
      cases services with
      | false => exact h (.ok _) _ (.missing rfl)
      | true =>
          refine asked_runs fun answer tried htried => h _ _ ?_
          rw [htried]
          convert Taken.services answer rfl using 1
          cases answer <;> rfl
  | drainActiveTasks =>
      refine asked_runs fun answer tried htried => h _ _ ?_
      rw [htried]
      convert Taken.drain answer using 1
      cases answer <;> rfl
  | completeBackup =>
      refine asked_runs fun answer tried htried => h _ _ ?_
      rw [htried]
      convert Taken.complete answer using 1
      cases answer <;> rfl
  | synchronizeFilesystem =>
      refine asked_runs fun answer tried htried => h _ _ ?_
      rw [htried]
      convert Taken.synchronize answer using 1
      cases answer <;> rfl
  | _ => cases hkind

/-- The result of a step is made after acceptable answers, and no others. -/
theorem Taken.isSome_iff {kind : MachineShutdownPreparationStep} {effect : StepEffect}
    (h : Taken services decision log kind effect log') (hlog : Clean log) :
    (stepOf kind decision.evaluatedAt effect).isSome = true ↔
      Clean log' ∧ (kind = .stopRegisteredServices → services = true) := by
  cases h with
  | missing hservices =>
      refine ⟨fun h => ?_, fun h => ?_⟩
      · cases h
      · cases hservices.symm.trans (h.2 rfl)
  | services answer hservices =>
      rw [servicesStep_isSome_iff, Clean.cons]
      exact ⟨fun h => ⟨⟨h, hlog⟩, fun _ => hservices⟩, fun h => h.1.1⟩
  | drain answer =>
      rw [stateStep_isSome_iff rfl, Clean.cons]
      exact ⟨fun h => ⟨⟨h, hlog⟩, nofun⟩, fun h => h.1.1⟩
  | complete answer =>
      rw [stateStep_isSome_iff rfl, Clean.cons]
      exact ⟨fun h => ⟨⟨h, hlog⟩, nofun⟩, fun h => h.1.1⟩
  | synchronize answer =>
      rw [stateStep_isSome_iff rfl, Clean.cons]
      exact ⟨fun h => ⟨⟨h, hlog⟩, nofun⟩, fun h => h.1.1⟩

theorem Taken.subset {kind : MachineShutdownPreparationStep} {effect : StepEffect}
    (h : Taken services decision log kind effect log') : log ⊆ log' := by
  cases h <;> first | exact List.Subset.refl _ | exact List.subset_cons_self _ _

theorem stepOf_some {kind : MachineShutdownPreparationStep} {processedAt : Timestamp}
    {effect : StepEffect} {step : MachineShutdownPreparationStepResult}
    (h : stepOf kind processedAt effect = some step) :
    step.kind = kind ∧ step.outcome = effect.outcome := by
  simp only [stepOf, createMachineShutdownPreparationStepResult, Option.bind_eq_bind,
    Option.bind_eq_some_iff] at h
  obtain ⟨_, -, _, -, h⟩ := h
  obtain rfl := Option.some.inj h
  exact ⟨rfl, rfl⟩

/-- A step that is done is done for a reason. -/
theorem Taken.stepDone {kind : MachineShutdownPreparationStep} {effect : StepEffect}
    {step : MachineShutdownPreparationStepResult}
    (h : Taken services decision log kind effect log')
    (hstep : stepOf kind decision.evaluatedAt effect = some step)
    (hdone : effect.outcome ≠ .blocked ∧ effect.outcome ≠ .failed) : StepDone log' step := by
  obtain ⟨hkind, houtcome⟩ := stepOf_some hstep
  have hstate : ∀ {event : Prog.Event PowerCall PowerAnswer _} {answer}, isState kind = true →
      (∀ result, answer = .ok result → StateAnswer kind result event) →
      effect = effectFrom (stateEffect kind) answer → event ∈ log' → StepDone log' step := by
    intro event answer hstate hevent heffect hmem
    cases answer with
    | error e => exact absurd (congrArg StepEffect.outcome heffect) hdone.2
    | ok result =>
        rcases stateEffect_cases decision.evaluatedAt hstate result with
          ⟨-, hnone⟩ | ⟨-, blocked, hblocked, houtcome, -⟩ |
            ⟨value, outcome, hmember, -, hcases, hsome⟩
        · rw [effectFrom, hnone] at heffect
          exact absurd (congrArg StepEffect.outcome heffect) hdone.2
        · rw [effectFrom, hblocked] at heffect
          exact absurd ((congrArg StepEffect.outcome heffect).trans houtcome) hdone.1
        · rw [effectFrom, hsome, Option.getD_some] at heffect
          subst heffect
          rw [stepOf_done hstate hcases] at hstep
          split at hstep
          · next haccepted =>
              obtain rfl := Option.some.inj hstep
              rcases hcases with rfl | rfl
              · exact .inl rfl
              · exact .inr ⟨rfl, event, hmem, result, value, hevent result rfl, hmember, haccepted,
                  rfl⟩
          · cases hstep
  cases h with
  | missing => exact absurd rfl hdone.2
  | services answer =>
      refine .inl (houtcome.trans ?_)
      cases answer with
      | error e => exact absurd rfl hdone.2
      | ok result =>
          rw [effectFrom] at hdone ⊢
          cases heffect : serviceEffect (serviceIdsToStop decision) result with
          | none => rw [heffect] at hdone; exact absurd rfl hdone.2
          | some effect =>
              obtain ⟨items, _, _, -, -, -, -, -, -, -, rfl⟩ := serviceEffect_eq_some_iff.mp heffect
              rw [heffect, Option.getD_some, effectOfItems] at hdone
              rw [Option.getD_some, effectOfItems]
              split at hdone
              · exact absurd rfl hdone.2
              · rfl
  | drain answer =>
      exact hstate rfl (fun _ h => h ▸ .drain) rfl List.mem_cons_self
  | complete answer =>
      exact hstate rfl (fun _ h => h ▸ .complete) rfl List.mem_cons_self
  | synchronize answer =>
      exact hstate rfl (fun _ h => h ▸ .synchronize) rfl List.mem_cons_self

/-! ### The steps -/

/-- Where a preparation stands when the steps `kinds` are still to be taken. -/
structure Underway (decision : MachineShutdownReadinessDecision)
    (kinds : List MachineShutdownPreparationStep)
    (steps : List MachineShutdownPreparationStepResult)
    (events : List MachineShutdownPreparationEvent) (log : PowerLog) : Prop where
  clean : Clean log
  started : Started log
  recorded : EventsSoFar decision events
  nonempty : events ≠ []
  taken : steps.map (·.kind) ++ kinds.filter (!·.isRecord) =
    (stepsFor decision.blockers).filter (!·.isRecord)
  done : ∀ step ∈ steps, StepDone log step

/-- What the steps leave: a report, the results and events of steps that are all
done, or an error, which only comes up when a controller did not comply. -/
def StepsLeave (decision : MachineShutdownReadinessDecision) (present : Prop) :
    Except MachineShutdownOccurrenceExecutionFailure Progress → PowerLog → Prop
  | .ok (.inl report), log => Clean log ∧ present ∧ report.outcome = .incomplete
  | .ok (.inr (steps, events)), log => Underway decision [] steps events log ∧ present
  | .error _, log => ¬ (Clean log ∧ present) ∧ Started log

/-- Services are stopped first. -/
def StopsFirst (kinds : List MachineShutdownPreparationStep) : Prop :=
  kinds.Pairwise fun before kind => kind = .stopRegisteredServices → before.isRecord = true

theorem stopsFirst_stepsFor (blockers : List MachineShutdownReadinessBlocker) :
    StopsFirst (stepsFor blockers) :=
  List.Pairwise.sublist (stepsFor_sublist blockers) (by decide)

theorem partsAgree_of_initial (hrejected : decision.outcome = .rejected)
    {steps : List MachineShutdownPreparationStepResult}
    {events : List MachineShutdownPreparationEvent}
    {final : Option MachineShutdownReadinessDecision} {outcome : MachineShutdownPreparationOutcome}
    (hsteps : steps.map (·.kind) <+:
      (stepsFor decision.blockers).filter (· ≠ .recordPreparationStarted))
    (hfinal : ∀ d ∈ final, d.evaluatedAt = decision.evaluatedAt ∧
      d.occurrence = decision.occurrence) :
    PartsAgree decision {
      occurrence := decision.occurrence, processedAt := decision.evaluatedAt
      initialDecision := decision, plan := some (planOf decision), steps, events
      finalDecision := final, outcome } :=
  ⟨rfl, rfl, rfl, hrejected, rfl, hsteps, hfinal⟩

theorem incompleteReport_runs (hrejected : decision.outcome = .rejected)
    {steps : List MachineShutdownPreparationStepResult}
    {events : List MachineShutdownPreparationEvent}
    {final : Option MachineShutdownReadinessDecision}
    (hsteps : steps.map (·.kind) <+:
      (stepsFor decision.blockers).filter (· ≠ .recordPreparationStarted))
    (hevents : EventsSoFar decision events)
    (hfinal : ∀ d ∈ final, d.evaluatedAt = decision.evaluatedAt ∧
      d.occurrence = decision.occurrence)
    {Q : Except MachineShutdownOccurrenceExecutionFailure MachineShutdownPreparationReport →
      PowerLog → Prop}
    (h : ∀ report, report.outcome = .incomplete → Q (.ok report) log) :
    Runs (incompleteReport decision.occurrence decision.evaluatedAt decision (planOf decision) steps
      events final) Q log := by
  rw [incompleteReport, createReport_incomplete (partsAgree_of_initial hrejected hsteps hfinal)
    hevents rfl]
  exact h _ rfl

/-- A step whose result has been made. -/
theorem Underway.step {kind : MachineShutdownPreparationStep} (hkind : kind.isRecord = false)
    {kinds : List MachineShutdownPreparationStep}
    {steps : List MachineShutdownPreparationStepResult}
    {step : MachineShutdownPreparationStepResult} {events : List MachineShutdownPreparationEvent}
    (h : Underway decision (kind :: kinds) steps events log) (hclean : Clean log')
    (hsubset : log ⊆ log') (hstep : step.kind = kind) (hdone : StepDone log' step)
    {value : MachineShutdownPreparationEvent} {eventKind : MachineShutdownPreparationEventKind}
    {detail : List (String × JsValue)}
    (hvalue : createMachineShutdownPreparationEvent (events.length + 1) eventKind
      decision.occurrence decision.evaluatedAt detail = some value)
    (hnotFinal : eventKind ≠ .finalReadinessApproved ∧ eventKind ≠ .finalReadinessRejected) :
    Underway decision kinds (steps ++ [step]) (events ++ [value]) log' where
  clean := hclean
  started := h.started.subset hsubset
  recorded := by
    obtain ⟨hsequence, hkind, hoccurrence, hoccurred⟩ :=
      createMachineShutdownPreparationEvent_some hvalue
    refine h.recorded.append hsequence hoccurred hoccurrence
      (fun hnil => absurd hnil h.nonempty) ?_
    simp [MachineShutdownPreparationReport.isFinal, hkind, hnotFinal]
  nonempty := by simp
  taken := by
    rw [← h.taken, List.map_append, List.append_assoc, List.filter_cons_of_pos (by simp [hkind]),
      List.map_singleton, hstep, List.singleton_append]
  done := by
    intro other hmem
    rcases List.mem_append.mp hmem with hmem | hmem
    · exact (h.done other hmem).subset hsubset
    · rwa [List.mem_singleton.mp hmem]

theorem stepsIncomplete_runs (hrejected : decision.outcome = .rejected)
    {steps : List MachineShutdownPreparationStepResult}
    {events : List MachineShutdownPreparationEvent} {kind : MachineShutdownPreparationStep}
    {code : String} {present : Prop}
    (hsteps : steps.map (·.kind) <+:
      (stepsFor decision.blockers).filter (· ≠ .recordPreparationStarted))
    (hevents : EventsSoFar decision events) (hnonempty : events ≠ []) (hclean : Clean log)
    (hpresent : present) :
    Runs (do
      let events ←
        recordFailure decision.occurrence decision.evaluatedAt events kind code
      let report ← incompleteReport decision.occurrence decision.evaluatedAt decision
        (planOf decision) steps events none
      return (.inl report : Progress)) (StepsLeave decision present) log := by
  refine Runs.bind (recordFailure_runs hevents hnonempty fun events log' hevents hrecorded => ?_)
  refine Runs.bind (incompleteReport_runs hrejected hsteps hevents (by simp) ?_)
  intro report hreport
  exact ⟨hrecorded.clean hclean, hpresent, hreport⟩

theorem completedKind_notFinal (kind : MachineShutdownPreparationStep) :
    completedKind kind ≠ .finalReadinessApproved ∧ completedKind kind ≠ .finalReadinessRejected := by
  cases kind <;> decide

/-- **The steps.**  By induction on the steps that are still to be taken. -/
theorem prepareSteps_runs (hrejected : decision.outcome = .rejected)
    {kinds : List MachineShutdownPreparationStep} (hfirst : StopsFirst kinds)
    {steps : List MachineShutdownPreparationStepResult}
    {events : List MachineShutdownPreparationEvent} (h : Underway decision kinds steps events log) :
    Runs (prepareSteps services decision.occurrence decision.evaluatedAt decision (planOf decision)
      kinds steps events)
      (StepsLeave decision (.stopRegisteredServices ∈ kinds → services = true)) log := by
  induction kinds generalizing steps events log with
  | nil => exact ⟨h, nofun⟩
  | cons kind kinds ih =>
      obtain ⟨hbefore, hrest⟩ := List.pairwise_cons.mp hfirst
      unfold prepareSteps
      split
      · next hrecord =>
          have hkinds : (kind :: kinds).filter (!·.isRecord) = kinds.filter (!·.isRecord) :=
            List.filter_cons_of_neg (by simp [hrecord])
          have hne : MachineShutdownPreparationStep.stopRegisteredServices ≠ kind := by
            rintro rfl
            cases hrecord
          simp only [List.mem_cons, hne, false_or]
          exact ih hrest ⟨h.clean, h.started, h.recorded, h.nonempty, hkinds ▸ h.taken, h.done⟩
      · next hrecord =>
          rw [Bool.not_eq_true] at hrecord
          have hlast : MachineShutdownPreparationStep.stopRegisteredServices ∉ kinds := by
            intro hmem
            rw [hbefore _ hmem rfl] at hrecord
            cases hrecord
          have hpresent : (MachineShutdownPreparationStep.stopRegisteredServices ∈ kind :: kinds →
              services = true) ↔ (kind = .stopRegisteredServices → services = true) := by
            simp [hlast, eq_comm]
          refine Runs.bind (stepEffect_runs hrecord fun tried log' htaken => ?_)
          have hmade := htaken.isSome_iff h.clean
          refine Runs.bind ?_
          change Runs (required (stepOf kind decision.evaluatedAt (effectOf tried))) _ _
          cases hstep : stepOf kind decision.evaluatedAt (effectOf tried) with
          | none =>
              rw [hstep, ← hpresent] at hmade
              exact ⟨fun hcomply => Bool.false_ne_true (hmade.mpr hcomply),
                h.started.subset htaken.subset⟩
          | some step =>
              obtain ⟨hclean, hservices⟩ := hmade.mp (by rw [hstep]; rfl)
              have hkind := (stepOf_some hstep).1
              have hprefix : (steps ++ [step]).map (·.kind) <+:
                  (stepsFor decision.blockers).filter (· ≠ .recordPreparationStarted) := by
                rw [stepsFor_filter, ← h.taken, List.filter_cons_of_pos (by simp [hrecord]),
                  List.map_append, List.map_singleton, hkind, List.append_assoc,
                  List.prefix_append_right_inj]
                exact ⟨_, rfl⟩
              -- a step that is blocked or failed, or whose event is not recorded, ends the steps
              change Runs (if _ then _ else _) _ _
              split
              · exact stepsIncomplete_runs hrejected hprefix h.recorded h.nonempty hclean
                  (hpresent.mpr hservices)
              · next hdone =>
                  rw [not_or] at hdone
                  refine Runs.bind (recordEvent_runs (fun value answer hvalue => ?_) ?_ ?_)
                  · have hnext : Underway decision kinds (steps ++ [step]) (events ++ [value])
                        (⟨.record value, .ok answer⟩ :: log') := h.step hrecord (Recorded.refl.record.clean hclean)
                      (fun _ hmem => List.mem_cons_of_mem _ (htaken.subset hmem)) hkind
                      ((htaken.stepDone hstep hdone).subset (List.subset_cons_self _ _)) hvalue
                      (completedKind_notFinal kind)
                    have hsame : (MachineShutdownPreparationStep.stopRegisteredServices ∈
                        kind :: kinds → services = true) =
                          (MachineShutdownPreparationStep.stopRegisteredServices ∈ kinds →
                            services = true) :=
                      propext ⟨fun _ hmem => absurd hmem hlast, fun _ => hpresent.mpr hservices⟩
                    rw [hsame]
                    exact ih hrest hnext
                  · exact stepsIncomplete_runs hrejected hprefix h.recorded h.nonempty hclean
                      (hpresent.mpr hservices)
                  · intro value error
                    exact stepsIncomplete_runs hrejected hprefix h.recorded h.nonempty
                      (Recorded.refl.record.clean hclean) (hpresent.mpr hservices)

/-! ### The final decision -/

/-- Only calls whose answers are all accepted have been made since. -/
structure Grown (log log' : PowerLog) : Prop where
  subset : log ⊆ log'
  clean : Clean log → Clean log'

theorem Grown.trans {log'' : PowerLog} (h : Grown log log') (h' : Grown log' log'') :
    Grown log log'' where
  subset _ hmem := h'.subset (h.subset hmem)
  clean hclean := h'.clean (h.clean hclean)

theorem Grown.call {call : PowerCall}
    {answer : Except MachineShutdownOccurrenceExecutionFailure (PowerAnswer call)}
    (h : Accepted call answer) : Grown log (⟨call, answer⟩ :: log) where
  subset := List.subset_cons_self _ _
  clean hclean := Clean.cons.mpr ⟨h, hclean⟩

/-- The rule for a part of an evaluation: it returns and only readers are asked. -/
def Reads {α : Type} (program : PowerProg α) : Prop :=
  ∀ log, Runs program (fun outcome log' => (∃ a, outcome = .ok a) ∧ Grown log log') log

theorem reads_attempt {α : Type} {program : PowerProg JsValue}
    (hprogram : ∀ log, Runs program (fun _ log' => Grown log log') log)
    (check : JsValue → Option α) :
    Reads (Prog.attempt do
      let result ← program
      required (check result)) := by
  intro log
  rw [Runs, Prog.spec_attempt]
  refine Runs.bind ((hprogram log).mono (fun _ h => h) ?_)
  rintro (e | result) log' hgrown
  · exact ⟨⟨_, rfl⟩, hgrown⟩
  · dsimp only
    cases check result <;> exact ⟨⟨_, rfl⟩, hgrown⟩

theorem ask_grown (call : PowerCall) (hcall : ∀ answer, Accepted call answer) (log : PowerLog) :
    Runs (ask call) (fun _ log' => Grown log log') log := by
  rw [Runs, ask, Prog.spec_perform]
  rintro answer log' ⟨-, rfl⟩
  exact ⟨trivial, .call (hcall answer)⟩

theorem Reads.bind {α β : Type} {program : PowerProg α} {rest : α → PowerProg β}
    {Q : Except MachineShutdownOccurrenceExecutionFailure β → PowerLog → Prop}
    (h : Reads program) (hrest : ∀ a log', Grown log log' → Runs (rest a) Q log') :
    Runs (program >>= rest) Q log := by
  refine Runs.bind ((h log).mono (fun _ h => h) ?_)
  rintro _ log' ⟨⟨a, rfl⟩, hgrown⟩
  exact hrest a log' hgrown

theorem reads_collectService {occurrence : MachineShutdownOccurrence} {evaluatedAt : Timestamp} :
    Reads (collectService occurrence evaluatedAt) := by
  intro log
  refine (reads_attempt (ask_grown (.readServices _ _) fun _ => trivial) serviceBlockers).bind
    fun found log' hgrown => ?_
  cases found <;> exact ⟨⟨_, rfl⟩, hgrown⟩

theorem reads_collect {read : PowerProg JsValue} {area : MachineShutdownBlockerArea}
    (hread : ∀ log, Runs read (fun _ log' => Grown log log') log) :
    Reads (collect read area) := by
  intro log
  refine (reads_attempt hread stateBlockers).bind fun found log' hgrown => ?_
  cases found <;> exact ⟨⟨_, rfl⟩, hgrown⟩

/-- What an evaluation leaves: a decision about the occurrence. -/
def Reevaluated (decision : MachineShutdownReadinessDecision) (log : PowerLog) :
    Except MachineShutdownOccurrenceExecutionFailure MachineShutdownReadinessDecision →
      PowerLog → Prop
  | .ok final, log' => final.occurrence = decision.occurrence ∧
    final.evaluatedAt = decision.evaluatedAt ∧ Grown log log' ∧
    ⟨.decided final, .ok ()⟩ ∈ log'
  | .error _, _ => False

theorem decideOn_runs {log₀ : PowerLog} (hgrown : Grown log₀ log)
    (blockers : List MachineShutdownReadinessBlocker) :
    Runs (decideOn localeCompare decision.occurrence decision.evaluatedAt blockers)
      (Reevaluated decision log₀) log := by
  obtain ⟨final, hfinal, hoccurrence, hevaluated, -⟩ :=
    createMachineShutdownReadinessDecision_outcomeOf localeCompare decision.occurrence
      decision.evaluatedAt blockers
  simp only [Runs, decideOn, hfinal, checked, Except.mapError, Prog.spec_bind,
    Prog.spec_ofExcept, ask, Prog.spec_perform]
  rintro answer log' ⟨hanswer, rfl⟩
  obtain rfl : answer = .ok () := hanswer
  exact ⟨trivial, hoccurrence, hevaluated, hgrown.trans (.call trivial), List.mem_cons_self⟩

/-- **Readiness.**  An evaluation always ends with a decision. -/
theorem evaluateAt_runs : Runs (evaluateAt localeCompare decision.occurrence decision.evaluatedAt)
    (Reevaluated decision log) log := by
  have hrefl : Grown log log := ⟨fun _ h => h, fun h => h⟩
  unfold evaluateAt
  split
  · exact decideOn_runs hrefl _
  split
  · exact decideOn_runs hrefl _
  refine Runs.bind ?_
  rw [Runs, Prog.spec_attempt]
  refine (ask_grown (.confirm _ _) (fun _ => trivial) log).mono (fun _ h => h)
    fun confirmation log₁ h₁ => ?_
  dsimp only
  split
  · exact decideOn_runs h₁ _
  · refine reads_collectService.bind fun services log₂ h₂ => ?_
    refine (reads_collect (ask_grown (.readActiveTasks _ _) fun _ => trivial)).bind
      fun tasks log₃ h₃ => ?_
    refine (reads_collect (ask_grown (.readBackups _ _) fun _ => trivial)).bind
      fun backups log₄ h₄ => ?_
    refine (reads_collect (ask_grown (.readFilesystem _ _) fun _ => trivial)).bind
      fun filesystem log₅ h₅ => ?_
    refine (reads_collect (ask_grown (.readEventRecording _ _) fun _ => trivial)).bind
      fun events log₆ h₆ => ?_
    exact decideOn_runs (((((h₁.trans h₂).trans h₃).trans h₄).trans h₅).trans h₆) _
  · exact decideOn_runs h₁ _

/-! ### The end -/

/-- The run has ended with a report, after acceptable answers. -/
def Concluded (log : PowerLog)
    (outcome : Except MachineShutdownOccurrenceExecutionFailure MachineShutdownPreparationReport)
    (log' : PowerLog) : Prop :=
  ReportsPreparation outcome log' ∧ Grown log log'

theorem reportsPreparation_incomplete {report : MachineShutdownPreparationReport}
    (h : report.outcome = .incomplete) : ReportsPreparation (.ok report) log :=
  ⟨report, rfl, fun hprepared => by rw [h] at hprepared; cases hprepared⟩

/-- The rule for a step that only records. -/
theorem recordStep_runs {α : Type} {kind : MachineShutdownPreparationStep} {processedAt : Timestamp}
    {rest : MachineShutdownPreparationStepResult → PowerProg α}
    {Q : Except MachineShutdownOccurrenceExecutionFailure α → PowerLog → Prop}
    (h : Runs (rest ⟨kind, processedAt, processedAt, .completed, none⟩) Q log) :
    Runs (recordStep processedAt kind >>= rest) Q log := Runs.bind h

theorem Recorded.grown (h : Recorded log log') : Grown log log' := ⟨h.subset, h.clean⟩

/-- The result of a step that only records. -/
def recordedAt (decision : MachineShutdownReadinessDecision) (kind : MachineShutdownPreparationStep) :
    MachineShutdownPreparationStepResult :=
  ⟨kind, decision.evaluatedAt, decision.evaluatedAt, .completed, none⟩

/-- The steps that are left when the controllers' steps are done. -/
theorem Underway.filter_stepsFor {steps : List MachineShutdownPreparationStepResult}
    {events : List MachineShutdownPreparationEvent} (h : Underway decision [] steps events log) :
    (stepsFor decision.blockers).filter (· ≠ .recordPreparationStarted) =
      steps.map (·.kind) ++ [.recordPreparationCompleted, .reevaluateReadiness,
        .recordFinalReadiness] := by
  rw [stepsFor_filter, ← h.taken, List.filter_nil, List.append_nil]

/-- **The final decision** is recorded and reported. -/
theorem recordFinal_runs (hrejected : decision.outcome = .rejected)
    {steps steps₂ : List MachineShutdownPreparationStepResult}
    {events events₁ : List MachineShutdownPreparationEvent} {final : MachineShutdownReadinessDecision}
    {log₂ : PowerLog} (h : Underway decision [] steps events log)
    (hsteps₂ : steps₂ = steps ++ [recordedAt decision .recordPreparationCompleted,
      recordedAt decision .reevaluateReadiness])
    (hrecorded : EventsSoFar decision events₁) (hnonempty : events₁ ≠ [])
    (hfinal : Reevaluated decision log (.ok final) log₂) :
    Runs (do
      match ← recordEvent decision.occurrence decision.evaluatedAt events₁ (finalEvent final).1
          (finalEvent final).2 with
      | none =>
        let events ← recordFailure decision.occurrence decision.evaluatedAt events₁
          .recordFinalReadiness "event_recording_failed"
        incompleteReport decision.occurrence decision.evaluatedAt decision (planOf decision) steps₂
          events (some final)
      | some events =>
        let last ← recordStep decision.evaluatedAt .recordFinalReadiness
        required (createMachineShutdownPreparationReport {
          occurrence := decision.occurrence, processedAt := decision.evaluatedAt
          initialDecision := decision, plan := some (planOf decision), steps := steps₂ ++ [last]
          events, finalDecision := some final
          outcome := if final.outcome = .approved then .prepared else .incomplete }))
      (Concluded log) log₂ := by
  obtain ⟨hfinalOccurrence, hfinalEvaluated, hgrown, hdecided⟩ := hfinal
  have hagrees : ∀ d ∈ some final, d.evaluatedAt = decision.evaluatedAt ∧
      d.occurrence = decision.occurrence := by
    rintro _ ⟨rfl⟩
    exact ⟨hfinalEvaluated, hfinalOccurrence⟩
  have hprefix₂ : steps₂.map (·.kind) <+:
      (stepsFor decision.blockers).filter (· ≠ .recordPreparationStarted) := by
    rw [h.filter_stepsFor, hsteps₂, List.map_append, List.prefix_append_right_inj]
    exact ⟨_, rfl⟩
  have hrefused : ∀ log₃, Recorded log₂ log₃ → Runs (do
      let events ← recordFailure decision.occurrence decision.evaluatedAt events₁
        .recordFinalReadiness "event_recording_failed"
      incompleteReport decision.occurrence decision.evaluatedAt decision (planOf decision) steps₂
        events (some final)) (Concluded log) log₃ := by
    intro log₃ hlog₃
    refine Runs.bind (recordFailure_runs hrecorded hnonempty fun events₃ log₄ hevents₃ hlog₄ => ?_)
    exact incompleteReport_runs hrejected hprefix₂ hevents₃ hagrees fun report hreport =>
      ⟨reportsPreparation_incomplete hreport, (hgrown.trans hlog₃.grown).trans hlog₄.grown⟩
  refine Runs.bind (recordEvent_runs (fun last lastAnswer hlast => ?_) ?_ fun last error => ?_)
  · obtain ⟨hlastSequence, hlastKind, hlastOccurrence, hlastOccurred⟩ :=
      createMachineShutdownPreparationEvent_some hlast
    refine recordStep_runs ?_
    generalize hfinalStep : steps₂ ++ [MachineShutdownPreparationStepResult.mk
      .recordFinalReadiness decision.evaluatedAt decision.evaluatedAt .completed none] = steps₃
    have hsteps : steps₃.map (·.kind) =
        (stepsFor decision.blockers).filter (· ≠ .recordPreparationStarted) := by
      rw [h.filter_stepsFor, ← hfinalStep, hsteps₂]
      simp [recordedAt]
    have hprefix₃ : steps₃.map (·.kind) <+:
        (stepsFor decision.blockers).filter (· ≠ .recordPreparationStarted) :=
      hsteps ▸ List.prefix_rfl
    have hcreated : createMachineShutdownPreparationReport {
        occurrence := decision.occurrence, processedAt := decision.evaluatedAt
        initialDecision := decision, plan := some (planOf decision), steps := steps₃
        events := events₁ ++ [last], finalDecision := some final
        outcome := if final.outcome = .approved then .prepared else .incomplete } = some _ :=
      createReport_final (partsAgree_of_initial hrejected hprefix₃ hagrees) rfl hrecorded
        hnonempty hlastSequence hlastOccurred hlastOccurrence rfl hlastKind
        (by simp [← hfinalStep]) rfl
    rw [hcreated]
    have hlog : Grown log₂ (⟨.record last, .ok lastAnswer⟩ :: log₂) := .call trivial
    refine ⟨⟨_, rfl, fun hprepared => ⟨?_, ⟨_, rfl, hsteps⟩, fun step hmem => ?_⟩⟩,
      hgrown.trans hlog⟩
    · refine ⟨final, rfl, ?_, hlog.subset hdecided⟩
      by_contra hnot
      rw [if_neg hnot] at hprepared
      cases hprepared
    · -- the results after the controllers' steps only record
      rw [← hfinalStep, hsteps₂] at hmem
      simp only [List.mem_append, List.mem_cons, List.not_mem_nil, or_false] at hmem
      rcases hmem with (hmem | rfl | rfl) | rfl
      · exact (h.done step hmem).subset fun _ hevent => hlog.subset (hgrown.subset hevent)
      · exact .inl rfl
      · exact .inl rfl
      · exact .inl rfl
  · exact hrefused log₂ Recorded.refl
  · exact hrefused _ Recorded.refl.record

theorem concludePreparation_runs (hrejected : decision.outcome = .rejected)
    {steps : List MachineShutdownPreparationStepResult}
    {events : List MachineShutdownPreparationEvent} (h : Underway decision [] steps events log) :
    Runs (concludePreparation localeCompare decision.occurrence decision.evaluatedAt decision
      (planOf decision) steps events) (Concluded log) log := by
  unfold concludePreparation
  refine recordStep_runs ?_
  dsimp only
  have hprefix : (steps ++ [recordedAt decision .recordPreparationCompleted]).map (·.kind) <+:
      (stepsFor decision.blockers).filter (· ≠ .recordPreparationStarted) := by
    rw [h.filter_stepsFor, List.map_append, List.prefix_append_right_inj]
    exact ⟨_, rfl⟩
  refine Runs.bind (recordEvent_runs (fun value answer hvalue => ?_) ?_ fun value error => ?_)
  · obtain ⟨hsequence, hkind, hoccurrence, hoccurred⟩ :=
      createMachineShutdownPreparationEvent_some hvalue
    have hrecorded : EventsSoFar decision (events ++ [value]) :=
      h.recorded.append hsequence hoccurred hoccurrence (fun hnil => absurd hnil h.nonempty)
        (by rw [MachineShutdownPreparationReport.isFinal, hkind]; rfl)
    have hnonempty : events ++ [value] ≠ [] := by simp
    have hgrown : Grown log (⟨.record value, .ok answer⟩ :: log) := .call trivial
    refine Runs.bind (evaluateAt_runs.mono (fun _ h => h) ?_)
    rintro (e | final) log₂ hfinal
    · exact hfinal.elim
    obtain ⟨hfinalOccurrence, hfinalEvaluated, hgrown₂, hdecided⟩ := hfinal
    refine recordStep_runs ?_
    exact recordFinal_runs hrejected h (List.append_assoc ..) hrecorded hnonempty
      ⟨hfinalOccurrence, hfinalEvaluated, hgrown.trans hgrown₂, hdecided⟩
  · exact incompleteReport_runs hrejected hprefix h.recorded (by simp) fun report hreport =>
      ⟨reportsPreparation_incomplete hreport, Recorded.refl.grown⟩
  · exact incompleteReport_runs hrejected hprefix h.recorded (by simp) fun report hreport =>
      ⟨reportsPreparation_incomplete hreport, Recorded.refl.record.grown⟩

theorem createPlanModel_some {occurrence : MachineShutdownOccurrence} {plannedAt : Timestamp}
    {steps : List MachineShutdownPreparationStep} {plan : MachineShutdownPreparationPlan}
    (h : createPlanModel occurrence plannedAt decision steps = .ok plan) :
    plan = ⟨occurrence, plannedAt, decision, steps⟩ := by
  unfold createPlanModel at h
  split at h
  · cases h
  · exact (Except.ok.inj h).symm

/-- What the planner makes of a decision. -/
theorem planning_cases (decision : MachineShutdownReadinessDecision) :
    decision.outcome = .approved ∧
        createMachineShutdownPreparationPlan decision.occurrence decision.evaluatedAt decision =
          .ok (.planned ⟨decision.occurrence, decision.evaluatedAt, decision, []⟩) ∨
      decision.outcome = .rejected ∧
        (createMachineShutdownPreparationPlan decision.occurrence decision.evaluatedAt decision =
            .ok (.blocked decision) ∨
          createMachineShutdownPreparationPlan decision.occurrence decision.evaluatedAt decision =
            .ok (.planned (planOf decision))) := by
  cases houtcome : decision.outcome with
  | approved => exact .inl ⟨rfl, planPreparation_approved rfl rfl houtcome⟩
  | rejected =>
      obtain ⟨planning, hplanning⟩ : ∃ planning, createMachineShutdownPreparationPlan
          decision.occurrence decision.evaluatedAt decision = .ok planning :=
        createMachineShutdownPreparationPlan_ok rfl rfl
      refine .inr ⟨rfl, ?_⟩
      rw [hplanning]
      simp only [createMachineShutdownPreparationPlan, houtcome, reduceCtorEq, if_false] at hplanning
      split at hplanning
      · exact .inl hplanning.symm
      · obtain ⟨plan, hplan, hplanning⟩ := exists_of_bind_ok hplanning
        rw [createPlanModel_some hplan] at hplanning
        exact .inr hplanning.symm

theorem stopRegisteredServices_mem_stepsFor {blockers : List MachineShutdownReadinessBlocker} :
    .stopRegisteredServices ∈ stepsFor blockers ↔
      ∃ blocker ∈ blockers, blocker.code = .serviceRunning := by
  simp [stepsFor]

theorem not_started_of_empty : ¬ Started [] := by
  rintro ⟨_, _, h⟩
  cases h

theorem not_started_of_refused {value : MachineShutdownPreparationEvent}
    {error : MachineShutdownOccurrenceExecutionFailure} :
    ¬ Started [⟨.record value, .error error⟩] := by
  rintro ⟨_, _, h⟩
  cases h with
  | tail _ h => cases h

/-- A run that reports is one in which the controllers comply, when they do. -/
theorem reports_iff_of_comply
    {outcome : Except MachineShutdownOccurrenceExecutionFailure MachineShutdownPreparationReport}
    (hreports : ReportsPreparation outcome log) (hclean : Clean log)
    (hpresent : Started log → .stopRegisteredServices ∈ stepsFor decision.blockers →
      services = true) :
    ReportsPreparation outcome log ↔ ControllersComply services decision log :=
  iff_of_true hreports ⟨hclean, fun hneeded hstarted =>
    hpresent hstarted (stopRegisteredServices_mem_stepsFor.mpr hneeded)⟩

theorem prepareAt_runs :
    Runs (prepareAt localeCompare services decision.occurrence decision.evaluatedAt (some decision))
      (fun outcome log => ReportsPreparation outcome log ↔
        ControllersComply services decision log) [] := by
  have hempty : Clean [] := fun _ h => by cases h
  simp only [prepareAt, Runs, Prog.spec_bind, Prog.spec_pure]
  rw [checked, Prog.spec_ofExcept]
  rcases planning_cases decision with ⟨happroved, hplan⟩ | ⟨hrejected, hplan | hplan⟩
  · have hreport := createMachineShutdownPreparationReport_notRequired happroved
    rw [notRequiredReport] at hreport
    rw [hplan]
    simp only [Except.mapError, List.length_nil, if_true, hreport]
    exact reports_iff_of_comply ⟨_, rfl, fun h => by cases h⟩ hempty fun h => absurd h not_started_of_empty
  · rw [hplan]
    have hreport := createReport_blocked hrejected
    rw [blockedReport] at hreport
    simp only [Except.mapError, hreport]
    exact reports_iff_of_comply ⟨_, rfl, fun h => by cases h⟩ hempty fun h => absurd h not_started_of_empty
  · rw [hplan]
    have hsteps : (planOf decision).steps.length ≠ 0 := by simp [planOf, stepsFor]
    simp only [Except.mapError, hsteps, if_false]
    have hnone : ([] : List MachineShutdownPreparationStepResult).map (·.kind) <+:
        (stepsFor decision.blockers).filter (· ≠ .recordPreparationStarted) := List.nil_prefix
    refine Runs.bind (recordEvent_runs (fun value answer hvalue => ?_) ?_ fun value error => ?_)
    · obtain ⟨hsequence, hkind, hoccurrence, hoccurred⟩ :=
        createMachineShutdownPreparationEvent_some hvalue
      have hrecorded : EventsSoFar decision [value] :=
        EventsSoFar.nil.append hsequence hoccurred hoccurrence (fun _ => hkind)
          (by rw [MachineShutdownPreparationReport.isFinal, hkind]; rfl)
      have hunderway : Underway decision (planOf decision).steps [] [value]
          [⟨.record value, .ok answer⟩] :=
        ⟨Clean.cons.mpr ⟨trivial, hempty⟩, ⟨value, answer, List.mem_cons_self⟩, hrecorded,
          List.cons_ne_nil _ _, rfl, fun step h => by cases h⟩
      refine Runs.bind ((prepareSteps_runs hrejected (stopsFirst_stepsFor decision.blockers)
        hunderway).mono (fun _ h => h) ?_)
      rintro (e | report | ⟨steps, events⟩) log hleft
      · have hnoReport : ¬ ReportsPreparation (.error e) log := fun hreports => by
          obtain ⟨_, hreport, _⟩ := hreports
          cases hreport
        refine iff_of_false hnoReport fun hcomply => hleft.1 ⟨hcomply.accepted, fun hmem => ?_⟩
        exact hcomply.present (stopRegisteredServices_mem_stepsFor.mp hmem) hleft.2
      · exact reports_iff_of_comply (reportsPreparation_incomplete hleft.2.2) hleft.1
          fun _ => hleft.2.1
      · refine (concludePreparation_runs hrejected hleft.1).mono (fun _ h => h) ?_
        rintro outcome log' ⟨hreports, hgrown⟩
        exact reports_iff_of_comply hreports (hgrown.clean hleft.1.clean) fun _ => hleft.2
    · refine incompleteReport_runs hrejected hnone .nil (by simp) fun report hreport => ?_
      exact reports_iff_of_comply (reportsPreparation_incomplete hreport) hempty
        fun h => absurd h not_started_of_empty
    · refine incompleteReport_runs hrejected hnone .nil (by simp) fun report hreport => ?_
      exact reports_iff_of_comply (reportsPreparation_incomplete hreport)
        (Clean.cons.mpr ⟨trivial, hempty⟩) fun h => absurd h not_started_of_refused

end Runs

/-! ## The theorem -/

/-- **When a preparation comes to a report.**  In every run of a preparation, the
planner and the check of plans agree; and it ends with a report, which says
`prepared` only when readiness was approved again and every planned step was
done, exactly when the controllers that were called answered acceptably and the
controller of the services was not missing. -/
theorem prepareAt_reports_iff {localeCompare : LocaleCompare} {services : Bool}
    {decision : MachineShutdownReadinessDecision}
    {outcome : Except MachineShutdownOccurrenceExecutionFailure MachineShutdownPreparationReport}
    {log : PowerLog}
    (hrun : Prog.Exec (Prog.logged (Answers fun _ => True))
      (prepareAt localeCompare services decision.occurrence decision.evaluatedAt (some decision)) []
      outcome log) :
    ((∃ planning, createMachineShutdownPreparationPlan decision.occurrence decision.evaluatedAt
        decision = .ok planning) ∧ ReportsPreparation outcome log) ↔
      ControllersComply services decision log :=
  ⟨fun h => (prepareAt_runs.exec hrun).mp h.2, fun h =>
    ⟨createMachineShutdownPreparationPlan_ok rfl rfl, (prepareAt_runs.exec hrun).mpr h⟩⟩

/-- A decision against the shutdown because a service is still running. -/
def serviceStillRunning : MachineShutdownReadinessDecision where
  occurrence := fridayNight
  evaluatedAt := fridayNight.scheduledFor
  outcome := .rejected
  blockers := [{ area := .services, code := .serviceRunning, serviceId := some "media" }]
  agrees := by simp

/-- The recorder takes every event, and the controller of the services throws. -/
def stopThrows (log : PowerLog) :
    (call : PowerCall) → Except MachineShutdownOccurrenceExecutionFailure (PowerAnswer call) ×
      PowerLog
  | .prepareServices occurrence requestedAt serviceIds =>
    (.error .unexpectedExecutionFailure,
      ⟨.prepareServices occurrence requestedAt serviceIds, .error .unexpectedExecutionFailure⟩ :: log)
  | call => (willing (.ok .null) call, ⟨call, willing (.ok .null) call⟩ :: log)

theorem exec_stopThrows {α : Type} (program : PowerProg α) :
    Prog.Exec (Prog.logged (Answers fun _ => True)) program []
      (Prog.run stopThrows program []).1 (Prog.run stopThrows program []).2 :=
  Prog.exec_run (fun log call => by cases call <;> exact ⟨by first | rfl | trivial, rfl⟩) program []

/-- The error of the controller is caught, but no result can be made of the step:
a result without service steps is refused, and the preparation throws. -/
theorem prepareAt_throws :
    ∃ log, Prog.Exec (Prog.logged (Answers fun _ => True))
        (prepareAt compare true fridayNight fridayNight.scheduledFor (some serviceStillRunning)) []
        (.error .unexpectedExecutionFailure) log ∧
      ¬ ReportsPreparation (.error .unexpectedExecutionFailure) log :=
  ⟨_, exec_stopThrows _, fun ⟨_, hreport, _⟩ => by cases hreport⟩

theorem prepareAt_reports_iff_stopThrows :
    ∃ outcome log, Prog.Exec (Prog.logged (Answers fun _ => True))
        (prepareAt compare true fridayNight fridayNight.scheduledFor (some serviceStillRunning)) []
        outcome log ∧
      (((∃ planning, createMachineShutdownPreparationPlan fridayNight fridayNight.scheduledFor
          serviceStillRunning = .ok planning) ∧ ReportsPreparation outcome log) ↔
        ControllersComply true serviceStillRunning log) := by
  have hrun := exec_stopThrows (prepareAt compare true serviceStillRunning.occurrence
    serviceStillRunning.evaluatedAt (some serviceStillRunning))
  exact ⟨_, _, hrun, prepareAt_reports_iff hrun⟩

end AtlasManager.Power
