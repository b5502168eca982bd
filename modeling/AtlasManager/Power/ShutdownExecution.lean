import AtlasManager.Power.ShutdownPreparation

/-!
# AtlasManager.Power.ShutdownExecution

The path from a due occurrence to the request that shuts the machine down.

* `executeCore` -- readiness, preparation, claim, wake alarm, shutdown;
* `MayShutDown` -- what should have been established before the request;
* `executeCore_guarded_iff` -- when it has been.
-/

namespace AtlasManager.Power

open AtlasManager.Lib

/-! ## Results -/

inductive MachineShutdownOccurrenceExecutionOutcome where
  | notDue
  | stale
  | duplicate
  | rejected (decision : MachineShutdownReadinessDecision)
      (preparationReport : Option MachineShutdownPreparationReport)
  | preparationIncomplete (preparationReport : MachineShutdownPreparationReport)
  | executed (wakeAlarmMutation : WakeAlarmMutationResult) (shutdownResult : MachineShutdownResult)
      (preparationReport : Option MachineShutdownPreparationReport)

structure MachineShutdownOccurrenceExecutionResult where
  occurrence : MachineShutdownOccurrence
  processedAt : Timestamp
  outcome : MachineShutdownOccurrenceExecutionOutcome

inductive MachineShutdownOccurrenceExecutionResultValidationErrorCode where
  | invalidEffect
  deriving DecidableEq, Repr

/-- Do the effects of an outcome belong to the occurrence and the instant? -/
def hasValidEffects (occurrence : MachineShutdownOccurrence) (processedAt : Timestamp) :
    MachineShutdownOccurrenceExecutionOutcome → Bool
  | .notDue | .stale | .duplicate => true
  | .rejected decision report =>
    decision.outcome = .rejected ∧ decision.evaluatedAt = processedAt ∧
      decision.occurrence = occurrence ∧ report.all (·.outcome = .blocked)
  | .preparationIncomplete report => report.outcome = .incomplete
  | .executed wake shutdown report =>
    wake.operation = .schedule ∧
      (wake.outcome = .scheduled ∨ wake.outcome = .replaced ∨ wake.outcome = .unchanged) ∧
      wake.requestedAt = processedAt ∧ wake.after = .scheduled occurrence.wakeScheduledFor ∧
      shutdown.requestedAt = processedAt ∧
      report.all fun report => report.outcome = .notRequired ∨ report.outcome = .prepared

def createMachineShutdownOccurrenceExecutionResult (occurrence : MachineShutdownOccurrence)
    (processedAt : Timestamp) (outcome : MachineShutdownOccurrenceExecutionOutcome) :
    Except MachineShutdownOccurrenceExecutionResultValidationErrorCode
      MachineShutdownOccurrenceExecutionResult :=
  if hasValidEffects occurrence processedAt outcome then
    .ok { occurrence, processedAt, outcome }
  else .error .invalidEffect

/-! ## The path -/

structure PreparationConfiguration where
  /-- a controller that stops services -/
  services : Bool

/-- Which of the optional parts are there. -/
structure ExecutionConfiguration where
  readiness : Bool
  preparation : Option PreparationConfiguration
  audit : Bool
  localeCompare : LocaleCompare

section Execution

variable (configuration : ExecutionConfiguration) (automaticallyPrepare : Bool)
  (occurrence : MachineShutdownOccurrence) (processedAt : Timestamp)

/-- Run a block whose errors all become one. -/
def orElse {α : Type} (failure : MachineShutdownOccurrenceExecutionFailure) (block : PowerProg α) :
    PowerProg α := do
  match ← block.attempt with
  | .ok a => return a
  | .error _ => .throw failure

def result (outcome : MachineShutdownOccurrenceExecutionOutcome) :
    PowerProg MachineShutdownOccurrenceExecutionResult :=
  checked (createMachineShutdownOccurrenceExecutionResult occurrence processedAt outcome)

/-- From the wake alarm to the shutdown. -/
def shutDown (report : Option MachineShutdownPreparationReport) :
    PowerProg MachineShutdownOccurrenceExecutionResult := do
  let wake ← orElse .wakeAlarmPreparationFailed do
    let answer ← ask (.schedule processedAt occurrence.wakeScheduledFor)
    checked (createWakeAlarmMutationResult answer)
  let shutdown ← orElse .shutdownFailedAfterWakeScheduled do
    let answer ← ask (.requestShutdown occurrence processedAt)
    checked (createMachineShutdownResult answer)
  orElse .shutdownFailedAfterWakeScheduled
    (result occurrence processedAt (.executed wake shutdown report))

/-- From the claim on. -/
def claimAndShutDown (report : Option MachineShutdownPreparationReport) :
    PowerProg MachineShutdownOccurrenceExecutionResult := do
  let claim ← orElse .claimFailed do
    let answer ← ask (.claim occurrence)
    checked (createMachineShutdownOccurrenceClaimResult answer)
  match claim with
  | .duplicate => result occurrence processedAt .duplicate
  | .claimed => shutDown occurrence processedAt report

/-- From the preparation on, with the decision if readiness is evaluated. -/
def prepareAndShutDown (decision : Option MachineShutdownReadinessDecision) :
    PowerProg MachineShutdownOccurrenceExecutionResult := do
  match configuration.preparation, decision with
  | some preparation, some decision =>
    if !automaticallyPrepare then claimAndShutDown occurrence processedAt none
    else
      let report ← prepareAt configuration.localeCompare preparation.services occurrence
        processedAt (some decision)
      match report.outcome with
      | .blocked => result occurrence processedAt (.rejected decision (some report))
      | .incomplete => result occurrence processedAt (.preparationIncomplete report)
      | _ => claimAndShutDown occurrence processedAt (some report)
  | _, _ => claimAndShutDown occurrence processedAt none

def executeCore : PowerProg MachineShutdownOccurrenceExecutionResult := do
  if processedAt.ms < occurrence.scheduledFor.ms then result occurrence processedAt .notDue
  else if processedAt.ms ≥ occurrence.wakeScheduledFor.ms then result occurrence processedAt .stale
  else if !configuration.readiness then
    prepareAndShutDown configuration automaticallyPrepare occurrence processedAt none
  else
    let decision ← evaluateAt configuration.localeCompare occurrence processedAt
    if decision.outcome = .rejected ∧
        (configuration.preparation.isNone ∨ !automaticallyPrepare) then
      result occurrence processedAt (.rejected decision none)
    else
      prepareAndShutDown configuration automaticallyPrepare occurrence processedAt (some decision)

/-- What the audit trail is told about a result. -/
def mapExecutionAudit (result : MachineShutdownOccurrenceExecutionResult) :
    AuditStatus × List (String × JsValue) :=
  let reportOutcome (report : MachineShutdownPreparationReport) : JsValue :=
    match report.outcome with
    | .notRequired => .str "not_required"
    | .blocked => .str "blocked"
    | .prepared => .str "prepared"
    | .incomplete => .str "incomplete"
  match result.outcome with
  | .executed wake _ report => (.succeeded,
      [("executionOutcome", .str "executed")] ++
      (report.map fun report => ("preparationOutcome", reportOutcome report)).toList ++
      [("wakeMutationOutcome", .str wake.outcome.text), ("shutdownAccepted", .bool true)])
  | .notDue => (.rejected, [("executionOutcome", .str "not_due")])
  | .stale => (.rejected, [("executionOutcome", .str "stale")])
  | .duplicate => (.rejected, [("executionOutcome", .str "duplicate")])
  | .preparationIncomplete report => (.rejected,
      [("executionOutcome", .str "preparation_incomplete"),
        ("preparationOutcome", reportOutcome report)])
  | .rejected decision _ => (.rejected,
      [("executionOutcome", .str "rejected"),
        ("blockerCodes", .arr (decision.blockers.map fun blocker => .str blocker.code.text))])

def mapExecutionFailure : MachineShutdownOccurrenceExecutionFailure → String
  | .claimFailed => "claim_failed"
  | .wakeAlarmPreparationFailed => "wake_alarm_preparation_failed"
  | .shutdownFailedAfterWakeScheduled => "shutdown_failed_after_wake_scheduled"
  | .unexpectedExecutionFailure => "unexpected_execution_failure"

/-- The path under the audit trail, if there is one. -/
def executeAt : PowerProg MachineShutdownOccurrenceExecutionResult := do
  let core := executeCore configuration automaticallyPrepare occurrence processedAt
  if !configuration.audit then core
  else
    let _ ← orElse .unexpectedExecutionFailure
      (ask (.auditBegin "execute_machine_shutdown_occurrence" processedAt))
    match ← core.attempt with
    | .error failure =>
      -- the failure of the execution remains the one that counts
      let _ ← (ask (.auditComplete .failed
        [("failureCode", .str (mapExecutionFailure failure))])).attempt
      .throw failure
    | .ok result =>
      let (status, details) := mapExecutionAudit result
      let _ ← orElse .unexpectedExecutionFailure (ask (.auditComplete status details))
      return result

end Execution

/-! ## What should hold before the request -/

abbrev PowerLog := Prog.Log PowerCall PowerAnswer MachineShutdownOccurrenceExecutionFailure

def PowerCall.isShutdown : PowerCall → Bool
  | .requestShutdown _ _ => true
  | _ => false

def PowerCall.decision? : PowerCall → Option MachineShutdownReadinessDecision
  | .decided decision => some decision
  | _ => none

/-- The last decision that was obtained for an occurrence and an instant. -/
def lastDecision (occurrence : MachineShutdownOccurrence) (processedAt : Timestamp)
    (log : PowerLog) : Option MachineShutdownReadinessDecision :=
  log.findSome? fun event => event.call.decision?.filter fun decision =>
    decision.occurrence = occurrence ∧ decision.evaluatedAt = processedAt

/-- What the claim store answered last about an occurrence. -/
def lastClaim (occurrence : MachineShutdownOccurrence) (log : PowerLog) :
    Option (Except MachineShutdownOccurrenceExecutionFailure JsValue) :=
  log.findSome? fun
    | ⟨.claim claimed, answer⟩ => if claimed = occurrence then some answer else none
    | _ => none

/-- What the wake-alarm controller answered last. -/
def lastWake (log : PowerLog) : Option (Except MachineShutdownOccurrenceExecutionFailure JsValue) :=
  log.findSome? fun
    | ⟨.schedule _ _, answer⟩ => some answer
    | _ => none

/-- The machine may be shut down for an occurrence, by what has happened so far. -/
structure MayShutDown (readiness : Bool) (occurrence : MachineShutdownOccurrence)
    (processedAt : Timestamp) (log : PowerLog) : Prop where
  due : occurrence.scheduledFor.ms ≤ processedAt.ms
  notStale : processedAt.ms < occurrence.wakeScheduledFor.ms
  approved : readiness = true → ∃ decision,
    lastDecision occurrence processedAt log = some decision ∧ decision.outcome = .approved
  claimed : ∃ answer, lastClaim occurrence log = some (.ok answer) ∧
    createMachineShutdownOccurrenceClaimResult answer = .ok .claimed
  armed : ∃ answer result, lastWake log = some (.ok answer) ∧
    createWakeAlarmMutationResult answer = .ok result ∧
    result.SchedulesAt occurrence.wakeScheduledFor

/-- The machine could be shut down whenever that was requested. -/
def ShutdownGuarded (readiness : Bool) (occurrence : MachineShutdownOccurrence)
    (processedAt : Timestamp) : PowerLog → Prop
  | [] => True
  | event :: log =>
    (event.call.isShutdown = true → MayShutDown readiness occurrence processedAt log) ∧
      ShutdownGuarded readiness occurrence processedAt log

/-- The ports answer anything, the wake-alarm controller one of the given answers. -/
def Answers (wakeAnswers : Except MachineShutdownOccurrenceExecutionFailure JsValue → Prop) :
    (call : PowerCall) → Except MachineShutdownOccurrenceExecutionFailure (PowerAnswer call) → Prop
  | .schedule _ _, answer => wakeAnswers answer
  | .decided _, answer => answer = .ok ()
  | _, _ => True

/-- An accepted answer says that the alarm is set to the end of the occurrence. -/
def ArmsWake (occurrence : MachineShutdownOccurrence)
    (answer : Except MachineShutdownOccurrenceExecutionFailure JsValue) : Prop :=
  ∀ value, answer = .ok value → ∀ result, createWakeAlarmMutationResult value = .ok result →
    result.SchedulesAt occurrence.wakeScheduledFor

/-! ## Runs before the request -/

section Quiet

variable {wakeAnswers : Except MachineShutdownOccurrenceExecutionFailure JsValue → Prop}
  {localeCompare : LocaleCompare} {services : Bool} {occurrence : MachineShutdownOccurrence}
  {processedAt : Timestamp} {log : PowerLog}

/-- A call of a reader, of a preparation step or of the audit trail. -/
def PowerCall.IsQuiet : PowerCall → Prop
  | .claim _ | .pruneCompletedThrough _ | .readCursor | .advanceCursor _ _ | .schedule _ _
  | .requestShutdown _ _ | .decided _ => False
  | _ => True

theorem PowerCall.IsQuiet.isShutdown_eq {call : PowerCall} (h : call.IsQuiet) :
    call.isShutdown = false := by
  cases call <;> first | rfl | exact absurd h id

theorem PowerCall.IsQuiet.decision?_eq {call : PowerCall} (h : call.IsQuiet) :
    call.decision? = none := by
  cases call <;> first | rfl | exact absurd h id

def NoShutdown (log : PowerLog) : Prop := ∀ event ∈ log, event.call.isShutdown = false

/-- Nothing has been shut down, and this is the last decision. -/
def DecidedBy (occurrence : MachineShutdownOccurrence) (processedAt : Timestamp)
    (decision : Option MachineShutdownReadinessDecision) (log : PowerLog) : Prop :=
  NoShutdown log ∧ lastDecision occurrence processedAt log = decision

theorem NoShutdown.cons {call : PowerCall}
    {answer : Except MachineShutdownOccurrenceExecutionFailure (PowerAnswer call)}
    (h : NoShutdown log) (hcall : call.isShutdown = false) :
    NoShutdown (⟨call, answer⟩ :: log) := by
  intro e he
  rcases List.mem_cons.mp he with rfl | he
  · exact hcall
  · exact h e he

theorem NoShutdown.guarded {readiness : Bool} (h : NoShutdown log) :
    ShutdownGuarded readiness occurrence processedAt log := by
  induction log with
  | nil => trivial
  | cons event log ih =>
      have hevent := h event List.mem_cons_self
      refine ⟨fun hshutdown => ?_, ih fun e he => h e (List.mem_cons_of_mem _ he)⟩
      rw [hevent] at hshutdown
      contradiction

theorem DecidedBy.step {decision : Option MachineShutdownReadinessDecision} (log : PowerLog)
    (call : PowerCall) (answer : Except MachineShutdownOccurrenceExecutionFailure (PowerAnswer call))
    (log' : PowerLog) (hcall : call.IsQuiet)
    (h : DecidedBy occurrence processedAt decision log)
    (hstep : Prog.logged (Answers wakeAnswers) log call answer log') :
    DecidedBy occurrence processedAt decision log' := by
  obtain ⟨-, rfl⟩ := hstep
  refine ⟨h.1.cons hcall.isShutdown_eq, ?_⟩
  rw [lastDecision, List.findSome?_cons, hcall.decision?_eq]
  exact h.2

theorem NoShutdown.step (log : PowerLog) (call : PowerCall)
    (answer : Except MachineShutdownOccurrenceExecutionFailure (PowerAnswer call))
    (log' : PowerLog) (hcall : call.IsQuiet) (h : NoShutdown log)
    (hstep : Prog.logged (Answers wakeAnswers) log call answer log') : NoShutdown log' := by
  obtain ⟨-, rfl⟩ := hstep
  exact h.cons hcall.isShutdown_eq

theorem only_required {P : PowerCall → Prop} {α : Type} (a : Option α) :
    Prog.Only P (required a) := by
  cases a <;> trivial

theorem only_checked {P : PowerCall → Prop} {ε α : Type} (a : Except ε α) :
    Prog.Only P (checked a) := Prog.only_ofExcept

theorem only_collectService :
    Prog.Only PowerCall.IsQuiet (collectService occurrence processedAt) := by
  refine Prog.Only.bind ?_ fun found => ?_
  · rw [Prog.only_attempt]
    exact Prog.Only.bind (Prog.only_perform.mpr trivial) fun _ => only_required _
  · cases found <;> trivial

theorem only_collect {read : PowerProg JsValue} {area : MachineShutdownBlockerArea}
    (hread : Prog.Only PowerCall.IsQuiet read) :
    Prog.Only PowerCall.IsQuiet (collect read area) := by
  refine Prog.Only.bind ?_ fun found => ?_
  · rw [Prog.only_attempt]
    exact Prog.Only.bind hread fun _ => only_required _
  · cases found <;> trivial

/-- What an evaluation of readiness leaves. -/
def Evaluated (occurrence : MachineShutdownOccurrence) (processedAt : Timestamp)
    (outcome : Except MachineShutdownOccurrenceExecutionFailure MachineShutdownReadinessDecision)
    (log : PowerLog) : Prop :=
  NoShutdown log ∧ ∀ decision, outcome = .ok decision →
    decision.occurrence = occurrence ∧ decision.evaluatedAt = processedAt ∧
      lastDecision occurrence processedAt log = some decision

/-- A decision that has been made is the last one. -/
theorem decideOn_spec (blockers : List MachineShutdownReadinessBlocker) (h : NoShutdown log) :
    Prog.Spec (Prog.logged (Answers wakeAnswers)) NoShutdown
      (decideOn localeCompare occurrence processedAt blockers)
      (Evaluated occurrence processedAt) log := by
  obtain ⟨decision, hdecision, hoccurrence, hevaluated, -⟩ :=
    createMachineShutdownReadinessDecision_outcomeOf localeCompare occurrence processedAt blockers
  simp only [decideOn, hdecision, checked, Except.mapError, Prog.spec_bind, Prog.spec_ofExcept]
  rintro answer log' ⟨hanswer, rfl⟩
  obtain rfl : answer = .ok () := hanswer
  refine ⟨h.cons rfl, h.cons rfl, ?_⟩
  rintro _ ⟨rfl⟩
  refine ⟨hoccurrence, hevaluated, ?_⟩
  simp [lastDecision, PowerCall.decision?, hoccurrence, hevaluated, Option.filter]

/-- A quiet first part, and then the rest. -/
theorem NoShutdown.bind {α β : Type} {p : PowerProg α} {f : α → PowerProg β}
    {Q : Except MachineShutdownOccurrenceExecutionFailure β → PowerLog → Prop}
    (h : NoShutdown log) (hp : Prog.Only PowerCall.IsQuiet p)
    (hok : ∀ a log', NoShutdown log' →
      Prog.Spec (Prog.logged (Answers wakeAnswers)) NoShutdown (f a) Q log')
    (herr : ∀ e log', NoShutdown log' → Q (.error e) log') :
    Prog.Spec (Prog.logged (Answers wakeAnswers)) NoShutdown (p >>= f) Q log :=
  Prog.Spec.bind_of_only hp NoShutdown.step (fun _ h => h) h hok herr

/-- **Readiness.**  The decision that an evaluation ends with is the last one. -/
theorem evaluateAt_spec (h : NoShutdown log) :
    Prog.Spec (Prog.logged (Answers wakeAnswers)) NoShutdown
      (evaluateAt localeCompare occurrence processedAt)
      (Evaluated occurrence processedAt) log := by
  have herr : ∀ e log', NoShutdown log' → Evaluated occurrence processedAt (.error e) log' :=
    fun e log' h => ⟨h, fun _ hok => by cases hok⟩
  unfold evaluateAt
  split
  · exact decideOn_spec _ h
  split
  · exact decideOn_spec _ h
  refine h.bind (Prog.only_attempt.mpr (Prog.only_perform.mpr trivial)) ?_ herr
  intro confirmation log h
  split
  · exact decideOn_spec _ h
  · refine h.bind only_collectService (fun services log h => ?_) herr
    refine h.bind (only_collect (Prog.only_perform.mpr trivial)) (fun tasks log h => ?_) herr
    refine h.bind (only_collect (Prog.only_perform.mpr trivial)) (fun backups log h => ?_) herr
    refine h.bind (only_collect (Prog.only_perform.mpr trivial)) (fun filesystem log h => ?_)
      herr
    refine h.bind (only_collect (Prog.only_perform.mpr trivial)) (fun events log h => ?_) herr
    exact decideOn_spec _ h
  · exact decideOn_spec _ h

/-! ### Preparation -/

theorem only_recordEvent {events : List MachineShutdownPreparationEvent}
    {kind : MachineShutdownPreparationEventKind} {detail : List (String × JsValue)} :
    Prog.Only PowerCall.IsQuiet (recordEvent occurrence processedAt events kind detail) := by
  refine Prog.Only.bind ?_ fun recorded => ?_
  · rw [Prog.only_attempt]
    refine Prog.Only.bind (only_required _) fun value => ?_
    exact Prog.Only.bind (Prog.only_perform.mpr trivial) fun _ => trivial
  · cases recorded <;> trivial

theorem only_recordFailure {events : List MachineShutdownPreparationEvent}
    {step : MachineShutdownPreparationStep} {code : String} :
    Prog.Only PowerCall.IsQuiet (recordFailure occurrence processedAt events step code) :=
  Prog.Only.bind only_recordEvent fun _ => trivial

theorem only_stepEffect {decision : MachineShutdownReadinessDecision}
    {kind : MachineShutdownPreparationStep} :
    Prog.Only PowerCall.IsQuiet (stepEffect services occurrence processedAt decision kind) := by
  unfold stepEffect
  split
  · split
    · trivial
    · exact Prog.Only.bind (Prog.only_perform.mpr trivial) fun _ => only_required _
  · exact Prog.Only.bind (Prog.only_perform.mpr trivial) fun _ => only_required _
  · exact Prog.Only.bind (Prog.only_perform.mpr trivial) fun _ => only_required _
  · exact Prog.Only.bind (Prog.only_perform.mpr trivial) fun _ => only_required _

/-- A first part that decides nothing, and then the rest. -/
theorem DecidedBy.bind {α β : Type} {p : PowerProg α} {f : α → PowerProg β}
    {Q : Except MachineShutdownOccurrenceExecutionFailure β → PowerLog → Prop}
    {decision : Option MachineShutdownReadinessDecision}
    (h : DecidedBy occurrence processedAt decision log) (hp : Prog.Only PowerCall.IsQuiet p)
    (hok : ∀ a log', DecidedBy occurrence processedAt decision log' →
      Prog.Spec (Prog.logged (Answers wakeAnswers)) NoShutdown (f a) Q log')
    (herr : ∀ e log', DecidedBy occurrence processedAt decision log' → Q (.error e) log') :
    Prog.Spec (Prog.logged (Answers wakeAnswers)) NoShutdown (p >>= f) Q log :=
  Prog.Spec.bind_of_only hp DecidedBy.step (fun _ h => h.1) h hok herr

/-- What a preparation leaves: a shutdown may follow it only after an approval. -/
def Prepared (occurrence : MachineShutdownOccurrence) (processedAt : Timestamp)
    (outcome : Except MachineShutdownOccurrenceExecutionFailure MachineShutdownPreparationReport)
    (log : PowerLog) : Prop :=
  NoShutdown log ∧ ∀ report, outcome = .ok report →
    report.outcome = .notRequired ∨ report.outcome = .prepared →
    ∃ decision, lastDecision occurrence processedAt log = some decision ∧
      decision.outcome = .approved

/-- A report that passes its check is the one that was put together. -/
theorem report_spec {report : MachineShutdownPreparationReport}
    {Q : Except MachineShutdownOccurrenceExecutionFailure MachineShutdownPreparationReport →
      PowerLog → Prop}
    (hok : report.hasValidOutcome = true → Q (.ok report) log)
    (herr : Q (.error .unexpectedExecutionFailure) log) :
    Prog.Spec (Prog.logged (Answers wakeAnswers)) NoShutdown
      (required (createMachineShutdownPreparationReport report)) Q log := by
  unfold createMachineShutdownPreparationReport
  split
  · next hvalid => exact hok hvalid.2.2.2
  · exact herr

theorem Prepared.error {e : MachineShutdownOccurrenceExecutionFailure} (h : NoShutdown log) :
    Prepared occurrence processedAt (.error e) log :=
  ⟨h, fun _ hok => by cases hok⟩

/-- A preparation that ends early is incomplete. -/
theorem incompleteReport_spec {decision : MachineShutdownReadinessDecision}
    {plan : MachineShutdownPreparationPlan} {steps : List MachineShutdownPreparationStepResult}
    {events : List MachineShutdownPreparationEvent}
    {finalDecision : Option MachineShutdownReadinessDecision} (h : NoShutdown log) :
    Prog.Spec (Prog.logged (Answers wakeAnswers)) NoShutdown
      (incompleteReport occurrence processedAt decision plan steps events finalDecision)
      (Prepared occurrence processedAt) log := by
  refine report_spec (fun _ => ⟨h, ?_⟩) (.error h)
  rintro report ⟨rfl⟩ (houtcome | houtcome) <;> cases houtcome

/-- What the steps leave: they decide nothing, and a preparation that ends with
them is incomplete. -/
def StepsTaken (occurrence : MachineShutdownOccurrence) (processedAt : Timestamp)
    (last : Option MachineShutdownReadinessDecision)
    (outcome : Except MachineShutdownOccurrenceExecutionFailure Progress) (log : PowerLog) : Prop :=
  DecidedBy occurrence processedAt last log ∧
    ∀ report, outcome = .ok (.inl report) → Prepared occurrence processedAt (.ok report) log

theorem StepsTaken.error {last : Option MachineShutdownReadinessDecision}
    {e : MachineShutdownOccurrenceExecutionFailure}
    (h : DecidedBy occurrence processedAt last log) :
    StepsTaken occurrence processedAt last (.error e) log :=
  ⟨h, fun _ hreport => by cases hreport⟩

theorem stepsIncomplete_spec {decision : MachineShutdownReadinessDecision}
    {plan : MachineShutdownPreparationPlan} {steps : List MachineShutdownPreparationStepResult}
    {events : List MachineShutdownPreparationEvent}
    {last : Option MachineShutdownReadinessDecision}
    (h : DecidedBy occurrence processedAt last log) :
    Prog.Spec (Prog.logged (Answers wakeAnswers)) NoShutdown (do
      let report ← incompleteReport occurrence processedAt decision plan steps events none
      return (.inl report : Progress)) (StepsTaken occurrence processedAt last) log := by
  rw [Prog.spec_bind]
  refine report_spec (fun _ => ⟨h, ?_⟩) (.error h)
  rintro _ ⟨rfl⟩
  refine ⟨h.1, ?_⟩
  rintro _ ⟨rfl⟩ (houtcome | houtcome) <;> cases houtcome

theorem prepareSteps_spec {decision : MachineShutdownReadinessDecision}
    {plan : MachineShutdownPreparationPlan} {kinds : List MachineShutdownPreparationStep}
    {steps : List MachineShutdownPreparationStepResult}
    {events : List MachineShutdownPreparationEvent}
    {last : Option MachineShutdownReadinessDecision}
    (h : DecidedBy occurrence processedAt last log) :
    Prog.Spec (Prog.logged (Answers wakeAnswers)) NoShutdown
      (prepareSteps services occurrence processedAt decision plan kinds steps events)
      (StepsTaken occurrence processedAt last) log := by
  induction kinds generalizing steps events log with
  | nil => exact ⟨h, fun report hreport => by cases hreport⟩
  | cons kind kinds ih =>
      have herr : ∀ e log', DecidedBy occurrence processedAt last log' →
          StepsTaken occurrence processedAt last (.error e) log' := fun _ _ h => .error h
      unfold prepareSteps
      split
      · exact ih h
      refine h.bind (Prog.only_attempt.mpr only_stepEffect) (fun tried log h => ?_) herr
      refine h.bind (only_required _) (fun step log h => ?_) herr
      -- a step that is blocked or failed, or whose event is not recorded, ends the preparation
      split
      · exact h.bind only_recordFailure (fun _ log h => stepsIncomplete_spec h) herr
      · refine h.bind only_recordEvent (fun recorded log h => ?_) herr
        cases recorded with
        | some events => exact ih h
        | none => exact h.bind only_recordFailure (fun _ log h => stepsIncomplete_spec h) herr

/-- The final decision is the last one, and the report says what it is. -/
theorem concludePreparation_spec {decision : MachineShutdownReadinessDecision}
    {plan : MachineShutdownPreparationPlan} {steps : List MachineShutdownPreparationStepResult}
    {events : List MachineShutdownPreparationEvent} (h : NoShutdown log) :
    Prog.Spec (Prog.logged (Answers wakeAnswers)) NoShutdown
      (concludePreparation localeCompare occurrence processedAt decision plan steps events)
      (Prepared occurrence processedAt) log := by
  have herr : ∀ e log', NoShutdown log' → Prepared occurrence processedAt (.error e) log' :=
    fun _ _ h => .error h
  unfold concludePreparation
  refine h.bind (only_required _) (fun completion log h => ?_) herr
  refine h.bind only_recordEvent (fun recorded log h => ?_) herr
  cases recorded with
  | none => exact incompleteReport_spec h
  | some events =>
      rw [Prog.spec_bind]
      refine (evaluateAt_spec h).mono (fun _ h => h) ?_
      rintro (e | final) log' ⟨h, hfinal⟩
      · exact .error h
      obtain ⟨-, -, hlast⟩ := hfinal final rfl
      have hdecided : DecidedBy occurrence processedAt (some final) log' := ⟨h, hlast⟩
      have herr : ∀ e log', DecidedBy occurrence processedAt (some final) log' →
          Prepared occurrence processedAt (.error e) log' := fun _ _ h => .error h.1
      refine hdecided.bind (only_required _) (fun reevaluation log h => ?_) herr
      refine h.bind only_recordEvent (fun recorded log h => ?_) herr
      cases recorded with
      | none =>
          exact h.bind only_recordFailure (fun _ log h => incompleteReport_spec h.1) herr
      | some events =>
          refine h.bind (only_required _) (fun recording log h => ?_) herr
          refine report_spec (fun _ => ⟨h.1, ?_⟩) (.error h.1)
          rintro _ ⟨rfl⟩ houtcome
          refine ⟨final, h.2, ?_⟩
          by_contra hrejected
          simp [hrejected] at houtcome

/-- **Preparation.**  A preparation that lets the shutdown go on leaves an approval. -/
theorem prepareAt_spec {decision : MachineShutdownReadinessDecision}
    (h : DecidedBy occurrence processedAt (some decision) log) :
    Prog.Spec (Prog.logged (Answers wakeAnswers)) NoShutdown
      (prepareAt localeCompare services occurrence processedAt (some decision))
      (Prepared occurrence processedAt) log := by
  have herr : ∀ e log', DecidedBy occurrence processedAt (some decision) log' →
      Prepared occurrence processedAt (.error e) log' := fun _ _ h => .error h.1
  -- a report about no steps is `blocked`, or `not_required` after an approval
  have hreport : ∀ plan outcome, outcome ≠ .prepared →
      Prog.Spec (Prog.logged (Answers wakeAnswers)) NoShutdown
        (required (createMachineShutdownPreparationReport {
          occurrence, processedAt, initialDecision := decision, plan, steps := [], events := []
          finalDecision := none, outcome })) (Prepared occurrence processedAt) log := by
    intro plan outcome houtcome
    refine report_spec (fun hvalid => ⟨h.1, ?_⟩) (.error h.1)
    rintro _ ⟨rfl⟩ (hnot | hprepared)
    · refine ⟨decision, h.2, ?_⟩
      obtain rfl : outcome = .notRequired := hnot
      simp only [MachineShutdownPreparationReport.hasValidOutcome, decide_eq_true_eq] at hvalid
      exact hvalid.1
    · exact absurd hprepared houtcome
  simp only [prepareAt, Prog.spec_bind, Prog.spec_pure]
  rw [checked, Prog.spec_ofExcept]
  cases createMachineShutdownPreparationPlan occurrence processedAt decision with
  | error e => exact .error h.1
  | ok planning =>
      cases planning with
      | blocked _ => exact hreport _ _ (by simp)
      | planned plan =>
          simp only [Except.mapError]
          split
          · exact hreport _ _ (by simp)
          refine h.bind only_recordEvent (fun recorded log h => ?_) herr
          cases recorded with
          | none => exact incompleteReport_spec h.1
          | some events =>
              rw [Prog.spec_bind]
              refine (prepareSteps_spec h).mono (fun _ h => h) ?_
              rintro (e | report | ⟨steps, events⟩) log' ⟨h, hreport⟩
              · exact .error h.1
              · exact hreport report rfl
              · exact concludePreparation_spec h.1

/-! ### The path -/

/-- A call whose answer is checked, where every error becomes one. -/
theorem orElse_ask_spec {α ε : Type} {failure : MachineShutdownOccurrenceExecutionFailure}
    {call : PowerCall} {check : PowerAnswer call → Except ε α} {J : PowerLog → Prop}
    {Q : Except MachineShutdownOccurrenceExecutionFailure α → PowerLog → Prop}
    (h : ∀ answer, Answers wakeAnswers call answer →
      J (⟨call, answer⟩ :: log) ∧ Q (.error failure) (⟨call, answer⟩ :: log) ∧
        ∀ value a, answer = .ok value → check value = .ok a →
          Q (.ok a) (⟨call, answer⟩ :: log)) :
    Prog.Spec (Prog.logged (Answers wakeAnswers)) J (orElse failure (do
      let value ← ask call
      checked (check value))) Q log := by
  simp only [orElse, Prog.spec_bind, Prog.spec_attempt, Prog.spec_perform]
  rintro answer _ ⟨hanswer, rfl⟩
  obtain ⟨hJ, herr, hok⟩ := h answer hanswer
  refine ⟨hJ, ?_⟩
  cases answer with
  | error e => exact herr
  | ok value =>
      simp only [checked, Prog.spec_ofExcept]
      cases hcheck : check value with
      | error e => exact herr
      | ok a => exact hok value a rfl hcheck

variable {readiness : Bool}

theorem result_spec {outcome : MachineShutdownOccurrenceExecutionOutcome}
    (h : ShutdownGuarded readiness occurrence processedAt log) :
    Prog.Spec (Prog.logged (Answers wakeAnswers)) (ShutdownGuarded readiness occurrence processedAt)
      (result occurrence processedAt outcome)
      (fun _ log' => ShutdownGuarded readiness occurrence processedAt log') log := by
  rw [result, checked, Prog.spec_ofExcept]
  exact h

/-- When the alarm is armed right, the request comes when all is established. -/
theorem shutDown_spec {report : Option MachineShutdownPreparationReport}
    (hwake : ∀ answer, wakeAnswers answer → ArmsWake occurrence answer) (h : NoShutdown log)
    (hdue : occurrence.scheduledFor.ms ≤ processedAt.ms)
    (hstale : processedAt.ms < occurrence.wakeScheduledFor.ms)
    (happroved : readiness = true → ∃ decision,
      lastDecision occurrence processedAt log = some decision ∧ decision.outcome = .approved)
    (hclaimed : ∃ answer, lastClaim occurrence log = some (.ok answer) ∧
      createMachineShutdownOccurrenceClaimResult answer = .ok .claimed) :
    Prog.Spec (Prog.logged (Answers wakeAnswers)) (ShutdownGuarded readiness occurrence processedAt)
      (shutDown occurrence processedAt report)
      (fun _ log' => ShutdownGuarded readiness occurrence processedAt log') log := by
  rw [shutDown, Prog.spec_bind]
  refine orElse_ask_spec fun answer hanswer => ?_
  have hquiet : NoShutdown
      (⟨.schedule processedAt occurrence.wakeScheduledFor, answer⟩ :: log) := h.cons rfl
  refine ⟨hquiet.guarded, hquiet.guarded, ?_⟩
  rintro value wake rfl hvalid
  dsimp only
  rw [Prog.spec_bind]
  have hmay : MayShutDown readiness occurrence processedAt
      (⟨.schedule processedAt occurrence.wakeScheduledFor, .ok value⟩ :: log) :=
    ⟨hdue, hstale, happroved, hclaimed, value, wake, rfl, hvalid,
      hwake _ hanswer value rfl wake hvalid⟩
  refine orElse_ask_spec fun answer _ => ?_
  have hguarded : ShutdownGuarded readiness occurrence processedAt
      (⟨.requestShutdown occurrence processedAt, answer⟩ ::
        ⟨.schedule processedAt occurrence.wakeScheduledFor, .ok value⟩ :: log) :=
    ⟨fun _ => hmay, hquiet.guarded⟩
  refine ⟨hguarded, hguarded, ?_⟩
  rintro value' shutdown rfl -
  simp only [orElse, Prog.spec_bind, Prog.spec_attempt]
  refine (result_spec hguarded).mono (fun _ h => h) ?_
  rintro (e | result) log' h
  · exact h
  · exact h

theorem claimAndShutDown_spec {report : Option MachineShutdownPreparationReport}
    (hwake : ∀ answer, wakeAnswers answer → ArmsWake occurrence answer) (h : NoShutdown log)
    (hdue : occurrence.scheduledFor.ms ≤ processedAt.ms)
    (hstale : processedAt.ms < occurrence.wakeScheduledFor.ms)
    (happroved : readiness = true → ∃ decision,
      lastDecision occurrence processedAt log = some decision ∧ decision.outcome = .approved) :
    Prog.Spec (Prog.logged (Answers wakeAnswers)) (ShutdownGuarded readiness occurrence processedAt)
      (claimAndShutDown occurrence processedAt report)
      (fun _ log' => ShutdownGuarded readiness occurrence processedAt log') log := by
  rw [claimAndShutDown, Prog.spec_bind]
  refine orElse_ask_spec fun answer _ => ?_
  have hquiet : NoShutdown (⟨.claim occurrence, answer⟩ :: log) := h.cons rfl
  refine ⟨hquiet.guarded, hquiet.guarded, ?_⟩
  rintro value claim rfl hvalid
  cases claim with
  | duplicate => exact result_spec hquiet.guarded
  | claimed =>
      refine shutDown_spec hwake hquiet hdue hstale happroved ⟨value, ?_, hvalid⟩
      simp [lastClaim]

/-- A preparation that is made needs no approval before it, one that is left out does. -/
theorem prepareAndShutDown_spec {configuration : ExecutionConfiguration}
    {automaticallyPrepare : Bool} {decision : Option MachineShutdownReadinessDecision}
    (hwake : ∀ answer, wakeAnswers answer → ArmsWake occurrence answer) (h : NoShutdown log)
    (hdue : occurrence.scheduledFor.ms ≤ processedAt.ms)
    (hstale : processedAt.ms < occurrence.wakeScheduledFor.ms)
    (hlast : ∀ d ∈ decision, lastDecision occurrence processedAt log = some d)
    (hreadiness : readiness = true → ∃ d ∈ decision, d.outcome = .approved ∨
      configuration.preparation.isSome = true ∧ automaticallyPrepare = true) :
    Prog.Spec (Prog.logged (Answers wakeAnswers)) (ShutdownGuarded readiness occurrence processedAt)
      (prepareAndShutDown configuration automaticallyPrepare occurrence processedAt decision)
      (fun _ log' => ShutdownGuarded readiness occurrence processedAt log') log := by
  -- without a preparation the decision counts
  have hdirect : ¬ (configuration.preparation.isSome = true ∧ automaticallyPrepare = true) →
      Prog.Spec (Prog.logged (Answers wakeAnswers))
        (ShutdownGuarded readiness occurrence processedAt)
        (claimAndShutDown occurrence processedAt none)
        (fun _ log' => ShutdownGuarded readiness occurrence processedAt log') log := by
    intro hnot
    refine claimAndShutDown_spec hwake h hdue hstale fun hr => ?_
    obtain ⟨d, hd, happroved⟩ := hreadiness hr
    exact ⟨d, hlast d hd, happroved.resolve_right hnot⟩
  unfold prepareAndShutDown
  split
  · next preparation decision hpreparation =>
      split
      · next hauto =>
          refine hdirect fun hboth => ?_
          rw [hboth.2] at hauto
          contradiction
      rw [Prog.spec_bind]
      refine (prepareAt_spec ⟨h, hlast decision rfl⟩).mono (fun _ h => h.guarded) ?_
      rintro (e | report) log' ⟨h, hprepared⟩
      · exact h.guarded
      have hprepared := hprepared report rfl
      dsimp only
      cases houtcome : report.outcome with
      | blocked => exact result_spec h.guarded
      | incomplete => exact result_spec h.guarded
      | notRequired =>
          exact claimAndShutDown_spec hwake h hdue hstale fun _ => hprepared (Or.inl houtcome)
      | prepared =>
          exact claimAndShutDown_spec hwake h hdue hstale fun _ => hprepared (Or.inr houtcome)
  · next hnone =>
      refine claimAndShutDown_spec hwake h hdue hstale fun hr => ?_
      obtain ⟨d, hd, happroved⟩ := hreadiness hr
      refine ⟨d, hlast d hd, happroved.resolve_right fun hpreparation => ?_⟩
      obtain ⟨preparation, hsome⟩ := Option.isSome_iff_exists.mp hpreparation.1
      exact hnone preparation d hsome hd

/-- When the alarm is armed right in the time of the occurrence, every run is guarded. -/
theorem executeCore_spec {configuration : ExecutionConfiguration} {automaticallyPrepare : Bool}
    (hwake : occurrence.scheduledFor.ms ≤ processedAt.ms →
      processedAt.ms < occurrence.wakeScheduledFor.ms →
      ∀ answer, wakeAnswers answer → ArmsWake occurrence answer) :
    Prog.Spec (Prog.logged (Answers wakeAnswers))
      (ShutdownGuarded configuration.readiness occurrence processedAt)
      (executeCore configuration automaticallyPrepare occurrence processedAt)
      (fun _ log' => ShutdownGuarded configuration.readiness occurrence processedAt log') [] := by
  have hempty : NoShutdown [] := fun _ h => absurd h List.not_mem_nil
  unfold executeCore
  split
  · exact result_spec hempty.guarded
  next hdue =>
  split
  · exact result_spec hempty.guarded
  next hstale =>
  rw [not_lt] at hdue
  rw [ge_iff_le, not_le] at hstale
  have hwake := hwake hdue hstale
  split
  · next hreadiness =>
      refine prepareAndShutDown_spec hwake hempty hdue hstale (by simp) fun hr => ?_
      simp [hr] at hreadiness
  rw [Prog.spec_bind]
  refine (evaluateAt_spec hempty).mono (fun _ h => h.guarded) ?_
  rintro (e | decision) log ⟨h, hdecision⟩
  · exact h.guarded
  obtain ⟨-, -, hlast⟩ := hdecision decision rfl
  dsimp only
  split
  · exact result_spec h.guarded
  next hgoes =>
  refine prepareAndShutDown_spec hwake h hdue hstale (by simpa using hlast) fun _ => ?_
  refine ⟨decision, rfl, ?_⟩
  cases houtcome : decision.outcome with
  | approved => exact Or.inl rfl
  | rejected =>
      refine Or.inr ?_
      rw [not_and, not_or] at hgoes
      have hgoes := hgoes houtcome
      simpa [Option.isSome_iff_ne_none] using hgoes

end Quiet

/-! ## A run to the request -/

section Willing

/-- Ports that let everything go on, with one answer of the wake-alarm controller. -/
def willing (wakeAnswer : Except MachineShutdownOccurrenceExecutionFailure JsValue) :
    (call : PowerCall) → Except MachineShutdownOccurrenceExecutionFailure (PowerAnswer call)
  | .confirm _ _ => .ok (.str "confirmed")
  | .readServices _ _ => .ok (.obj [("state", .str "ready"), ("blockers", .arr [])])
  | .claim _ => .ok (.obj [("outcome", .str "claimed")])
  | .schedule _ _ => wakeAnswer
  | .readCursor => .ok none
  | .advanceCursor _ _ => .ok .advanced
  | .pruneCompletedThrough _ => .ok .unchanged
  | .decided _ => .ok ()
  | .prepareServices _ _ _ | .drain _ _ | .complete _ _ | .synchronize _ _ | .record _
  | .requestShutdown _ _ | .auditBegin _ _ | .auditComplete _ _ | .readActiveTasks _ _
  | .readBackups _ _ | .readFilesystem _ _ | .readEventRecording _ _ =>
    .ok (.obj [("state", .str "ready")])

/-- The run in which the ports are willing. -/
def willingRun (wakeAnswer : Except MachineShutdownOccurrenceExecutionFailure JsValue) {α : Type}
    (program : PowerProg α) (log : PowerLog) :
    Except MachineShutdownOccurrenceExecutionFailure α × PowerLog :=
  Prog.run (fun log call => (willing wakeAnswer call, ⟨call, willing wakeAnswer call⟩ :: log))
    program log

variable {wakeAnswer : Except MachineShutdownOccurrenceExecutionFailure JsValue}
  {services : Bool} {occurrence : MachineShutdownOccurrence} {processedAt : Timestamp}
  {log : PowerLog} (localeCompare : LocaleCompare) (configuration : ExecutionConfiguration)
  (automaticallyPrepare : Bool)

section Rules

variable {α β : Type}

theorem willingRun_pure (a : α) : willingRun wakeAnswer (pure a : PowerProg α) log = (.ok a, log) :=
  rfl

theorem willingRun_pure' (a : α) :
    willingRun wakeAnswer (.pure a : PowerProg α) log = (.ok a, log) := rfl

theorem willingRun_throw (e : MachineShutdownOccurrenceExecutionFailure) :
    willingRun wakeAnswer (.throw e : PowerProg α) log = (.error e, log) := rfl

theorem willingRun_call (call : PowerCall)
    (k : Except MachineShutdownOccurrenceExecutionFailure (PowerAnswer call) → PowerProg α) :
    willingRun wakeAnswer (.call call k) log =
      willingRun wakeAnswer (k (willing wakeAnswer call))
        (⟨call, willing wakeAnswer call⟩ :: log) := rfl

theorem willingRun_bind (p : PowerProg α) (f : α → PowerProg β) :
    willingRun wakeAnswer (p >>= f) log =
      match willingRun wakeAnswer p log with
      | (.ok a, log') => willingRun wakeAnswer (f a) log'
      | (.error e, log') => (.error e, log') := by
  simp only [willingRun, Prog.run_bind]
  generalize Prog.run _ p log = ended
  rcases ended with ⟨o, log'⟩
  cases o <;> rfl

theorem willingRun_attempt (p : PowerProg α) : willingRun wakeAnswer p.attempt log =
    (.ok (willingRun wakeAnswer p log).1, (willingRun wakeAnswer p log).2) :=
  Prog.run_attempt _ _ _

theorem willingRun_checked {ε : Type} (o : Except ε α) : willingRun wakeAnswer (checked o) log =
    (o.mapError fun _ => .unexpectedExecutionFailure, log) := Prog.run_ofExcept _ _ _

theorem willingRun_required (a : α) :
    willingRun wakeAnswer (required (some a)) log = (.ok a, log) := rfl

end Rules

variable (wakeAnswer log) in
theorem willingRun_evaluateAt (hdue : occurrence.scheduledFor.ms ≤ processedAt.ms)
    (hstale : processedAt.ms < occurrence.wakeScheduledFor.ms) :
    ∃ decision, (willingRun wakeAnswer (evaluateAt localeCompare occurrence processedAt) log).1 =
        .ok decision ∧ decision.occurrence = occurrence ∧
      decision.evaluatedAt = processedAt ∧ decision.outcome = .approved := by
  obtain ⟨decision, hdecision, hoccurrence, hevaluated, happroved⟩ :=
    createMachineShutdownReadinessDecision_outcomeOf localeCompare occurrence processedAt []
  have hservices : serviceBlockers (.obj [("state", .str "ready"), ("blockers", .arr [])]) =
      some [] := rfl
  have hstate : stateBlockers (.obj [("state", .str "ready")]) = some [] := rfl
  refine ⟨decision, ?_, hoccurrence, hevaluated, happroved.mpr rfl⟩
  simp only [evaluateAt, not_lt.mpr hdue, ge_iff_le, not_le.mpr hstale, if_false, collectService,
    collect, decideOn, ask, Prog.perform, willingRun_bind, willingRun_attempt, willingRun_call,
    willing, willingRun_pure', hservices, hstate, willingRun_required, willingRun_checked,
    willingRun_pure, List.append_nil, hdecision, Except.mapError]

theorem willingRun_prepareAt {decision : MachineShutdownReadinessDecision}
    (hoccurrence : decision.occurrence = occurrence)
    (hevaluated : decision.evaluatedAt = processedAt) (happroved : decision.outcome = .approved) :
    willingRun wakeAnswer (prepareAt localeCompare services occurrence processedAt (some decision))
      log = (.ok (notRequiredReport decision), log) := by
  subst hoccurrence hevaluated
  have hplan := planPreparation_approved rfl rfl happroved
  have hreport := createMachineShutdownPreparationReport_notRequired happroved
  rw [notRequiredReport] at hreport
  simp only [prepareAt, willingRun_bind, willingRun_pure, willingRun_checked, hplan,
    Except.mapError, List.length_nil, if_true, hreport, willingRun_required]
  rfl

/-- The request comes right after the answer of the wake-alarm controller. -/
theorem willingRun_claimAndShutDown {report : Option MachineShutdownPreparationReport}
    {value : JsValue} {wake : WakeAlarmMutationResult}
    (hvalid : createWakeAlarmMutationResult value = .ok wake) :
    ∃ log' answer, (willingRun (.ok value) (claimAndShutDown occurrence processedAt report) log).2 =
      ⟨.requestShutdown occurrence processedAt, answer⟩ ::
        ⟨.schedule processedAt occurrence.wakeScheduledFor, .ok value⟩ :: log' := by
  have hclaim : createMachineShutdownOccurrenceClaimResult (.obj [("outcome", .str "claimed")]) =
      .ok .claimed := rfl
  have hshutdown : createMachineShutdownResult (.obj [("state", .str "ready")]) =
      .error .invalidField := rfl
  simp only [claimAndShutDown, shutDown, orElse, ask, Prog.perform, willingRun_bind,
    willingRun_attempt, willingRun_call, willing, willingRun_pure', willingRun_checked, hclaim,
    Except.mapError, willingRun_pure, hvalid, hshutdown, willingRun_throw]
  exact ⟨_, _, rfl⟩

theorem willingRun_prepareAndShutDown {decision : Option MachineShutdownReadinessDecision}
    {value : JsValue} {wake : WakeAlarmMutationResult}
    (hdecision : ∀ d ∈ decision, d.occurrence = occurrence ∧ d.evaluatedAt = processedAt ∧
      d.outcome = .approved)
    (hvalid : createWakeAlarmMutationResult value = .ok wake) :
    ∃ log' answer, (willingRun (.ok value)
        (prepareAndShutDown configuration automaticallyPrepare occurrence processedAt decision)
        log).2 =
      ⟨.requestShutdown occurrence processedAt, answer⟩ ::
        ⟨.schedule processedAt occurrence.wakeScheduledFor, .ok value⟩ :: log' := by
  unfold prepareAndShutDown
  split
  · next preparation decision _ =>
      obtain ⟨hoccurrence, hevaluated, happroved⟩ := hdecision decision rfl
      split
      · exact willingRun_claimAndShutDown hvalid
      · rw [willingRun_bind, willingRun_prepareAt _ hoccurrence hevaluated happroved]
        exact willingRun_claimAndShutDown hvalid
  · exact willingRun_claimAndShutDown hvalid

/-- In the time of an occurrence, the request comes whatever the alarm was set to. -/
theorem willingRun_executeCore {value : JsValue} {wake : WakeAlarmMutationResult} (log : PowerLog)
    (hdue : occurrence.scheduledFor.ms ≤ processedAt.ms)
    (hstale : processedAt.ms < occurrence.wakeScheduledFor.ms)
    (hvalid : createWakeAlarmMutationResult value = .ok wake) :
    ∃ log' answer, (willingRun (.ok value)
        (executeCore configuration automaticallyPrepare occurrence processedAt) log).2 =
      ⟨.requestShutdown occurrence processedAt, answer⟩ ::
        ⟨.schedule processedAt occurrence.wakeScheduledFor, .ok value⟩ :: log' := by
  simp only [executeCore, not_lt.mpr hdue, ge_iff_le, not_le.mpr hstale, if_false]
  split
  · exact willingRun_prepareAndShutDown configuration automaticallyPrepare (by simp) hvalid
  obtain ⟨decision, hdecision, hoccurrence, hevaluated, happroved⟩ :=
    willingRun_evaluateAt (.ok value) log configuration.localeCompare hdue hstale
  rw [willingRun_bind]
  rcases hrun : willingRun (.ok value)
    (evaluateAt configuration.localeCompare occurrence processedAt) log with ⟨o, log'⟩
  rw [hrun] at hdecision
  obtain rfl : o = .ok decision := hdecision
  simp only [happroved, reduceCtorEq, false_and, if_false]
  exact willingRun_prepareAndShutDown configuration automaticallyPrepare
    (by simp [hoccurrence, hevaluated, happroved]) hvalid

theorem willingRun_reach {α : Type}
    {wakeAnswers : Except MachineShutdownOccurrenceExecutionFailure JsValue → Prop}
    (hpossible : wakeAnswers wakeAnswer) (program : PowerProg α) (log : PowerLog) :
    Prog.Reach (Prog.logged (Answers wakeAnswers)) program log
      (willingRun wakeAnswer program log).2 := by
  unfold willingRun
  refine (Prog.exec_run (fun w call => ⟨?_, rfl⟩) program log).reach
  cases call <;> first | exact hpossible | rfl | trivial

/-- A run that is not guarded, when an accepted answer says something else. -/
theorem exists_unguarded {value : JsValue} {wake : WakeAlarmMutationResult}
    {wakeAnswers : Except MachineShutdownOccurrenceExecutionFailure JsValue → Prop}
    (hdue : occurrence.scheduledFor.ms ≤ processedAt.ms)
    (hstale : processedAt.ms < occurrence.wakeScheduledFor.ms)
    (hpossible : wakeAnswers (.ok value)) (hvalid : createWakeAlarmMutationResult value = .ok wake)
    (hunarmed : ¬ wake.SchedulesAt occurrence.wakeScheduledFor) :
    ∃ log, Prog.Reach (Prog.logged (Answers wakeAnswers))
        (executeCore configuration automaticallyPrepare occurrence processedAt) [] log ∧
      ¬ ShutdownGuarded configuration.readiness occurrence processedAt log := by
  obtain ⟨log, answer, hrun⟩ :=
    willingRun_executeCore configuration automaticallyPrepare [] hdue hstale hvalid
  refine ⟨_, willingRun_reach hpossible _ [], fun hguarded => ?_⟩
  rw [hrun] at hguarded
  obtain ⟨answered, result, hwake, hresult, harmed⟩ := (hguarded.1 rfl).armed
  obtain rfl : value = answered := Except.ok.inj (Option.some.inj hwake)
  obtain rfl := Except.ok.inj (hvalid.symm.trans hresult)
  exact hunarmed harmed

end Willing

/-! ## The theorem -/

/-- **When the machine is only shut down after all is established.**  For every
behaviour of the other ports, the answers of the wake-alarm controller being
among the given ones, that is so exactly when the occurrence is not in its time
or every accepted answer says that the alarm is set to the occurrence's end. -/
theorem executeCore_guarded_iff (configuration : ExecutionConfiguration)
    (automaticallyPrepare : Bool) (occurrence : MachineShutdownOccurrence)
    (processedAt : Timestamp)
    (wakeAnswers : Except MachineShutdownOccurrenceExecutionFailure JsValue → Prop) :
    (∀ log, Prog.Reach (Prog.logged (Answers wakeAnswers))
        (executeCore configuration automaticallyPrepare occurrence processedAt) [] log →
      ShutdownGuarded configuration.readiness occurrence processedAt log) ↔
    processedAt.ms < occurrence.scheduledFor.ms ∨
      occurrence.wakeScheduledFor.ms ≤ processedAt.ms ∨
      ∀ answer, wakeAnswers answer → ArmsWake occurrence answer := by
  constructor
  · intro hguarded
    by_contra hnot
    push Not at hnot
    obtain ⟨hdue, hstale, wakeAnswer, hpossible, hwrong⟩ := hnot
    simp only [ArmsWake] at hwrong
    push Not at hwrong
    obtain ⟨value, rfl, wake, hvalid, hunarmed⟩ := hwrong
    obtain ⟨log, hreach, hunguarded⟩ :=
      exists_unguarded configuration automaticallyPrepare hdue hstale hpossible hvalid hunarmed
    exact hunguarded (hguarded log hreach)
  · intro h log hreach
    refine (executeCore_spec fun hdue hstale => ?_).reach trivial hreach
    rcases h with h | h | h
    · omega
    · omega
    · exact h

/-- A Friday from 22:00 until Saturday 06:00. -/
def fridayNight : MachineShutdownOccurrence where
  scheduledFor := ⟨1767996000000, by decide⟩
  wakeScheduledFor := ⟨1768024800000, by decide⟩
  ordered := by decide

/-- An answer that is well-formed, but the alarm is set to one hour after the end. -/
def lateAlarm : JsValue :=
  .obj [("operation", .str "schedule"), ("requestedAt", .str "2026-01-09T22:00:00.000Z"),
    ("outcome", .str "scheduled"), ("before", .obj [("state", .str "not_scheduled")]),
    ("after", .obj [("state", .str "scheduled"), ("scheduledFor", .str "2026-01-10T07:00:00.000Z")])]

/-- The machine is shut down although the alarm is set to another instant. -/
theorem executeCore_unguarded_lateAlarm :
    ∃ log, Prog.Reach (Prog.logged (Answers fun answer => answer = .ok lateAlarm))
        (executeCore ⟨true, some ⟨true⟩, false, compare⟩ true fridayNight fridayNight.scheduledFor)
        [] log ∧
      ¬ ShutdownGuarded true fridayNight fridayNight.scheduledFor log := by
  have hvalid : createWakeAlarmMutationResult lateAlarm = .ok {
      operation := .schedule
      requestedAt := fridayNight.scheduledFor
      outcome := .scheduled
      before := .notScheduled
      after := .scheduled ⟨1768028400000, by decide⟩
      valid := rfl } := by rfl
  exact exists_unguarded ⟨true, some ⟨true⟩, false, compare⟩ true (le_refl _) (by decide) rfl
    hvalid (by decide)

end AtlasManager.Power
