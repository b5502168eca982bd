import AtlasManager.Power.OccurrenceInterval
import AtlasManager.Power.SchedulerStores

/-!
# AtlasManager.Power.SchedulerTick

The machine power scheduler: every tick executes the occurrences between the
stored cursor and the clock, and moves the cursor when all are done.

* `RunMachinePowerSchedulerTick.executeAsAuthorized` -- a tick;
* `Ticks` -- ticks one after another, each of which may stop anywhere;
* `shutDownOnce_of_ticks` -- the machine is shut down at most once for an occurrence.
-/

namespace AtlasManager.Power

open AtlasManager.Lib

/-! ## Reports -/

inductive MachinePowerSchedulerItem where
  | completed (execution : MachineShutdownOccurrenceExecutionResult)
  | failed (occurrence : MachineShutdownOccurrence)
      (failureCode : MachineShutdownOccurrenceExecutionFailure)
  | rejected (occurrence : MachineShutdownOccurrence) (decision : MachineShutdownReadinessDecision)
      (preparationReport : Option MachineShutdownPreparationReport)

structure MachinePowerSchedulerReport where
  completedThrough : Timestamp
  tickedThrough : Timestamp
  occurrenceResults : List MachinePowerSchedulerItem
  complete : Bool

def createMachinePowerSchedulerItem : MachinePowerSchedulerItem → Option MachinePowerSchedulerItem
  | .rejected occurrence decision (some report) => do
    let report ← createMachineShutdownPreparationReport report
    guard (report.outcome = .blocked)
    return .rejected occurrence decision (some report)
  | item => some item

/-- May the cursor pass an item? -/
def MachinePowerSchedulerItem.isComplete : MachinePowerSchedulerItem → Bool
  | .completed execution =>
    match execution.outcome with
    | .rejected _ _ | .preparationIncomplete _ | .notDue => false
    | _ => true
  | _ => false

def createMachinePowerSchedulerReport (input : MachinePowerSchedulerReport) :
    Option MachinePowerSchedulerReport := do
  let occurrenceResults ← input.occurrenceResults.mapM createMachinePowerSchedulerItem
  let complete := occurrenceResults.all (·.isComplete)
  guard (input.complete = complete)
  guard (input.completedThrough.ms ≤ input.tickedThrough.ms)
  return { input with occurrenceResults, complete }

inductive MachinePowerSchedulerBlockReason where
  | clockRegression
  | intervalTooLarge
  deriving DecidableEq, Repr

inductive MachinePowerSchedulerResult where
  | initialized (cursor : MachinePowerSchedulerCursor)
  | idle (cursor : MachinePowerSchedulerCursor) (tickedAt : Timestamp)
  | blocked (cursor : MachinePowerSchedulerCursor) (tickedAt : Timestamp)
      (reason : MachinePowerSchedulerBlockReason)
  | incomplete (previousCursor : MachinePowerSchedulerCursor) (report : MachinePowerSchedulerReport)
      (claimPruningResult : MachineShutdownOccurrenceClaimPruningOutcome)
  | advanced (previousCursor cursor : MachinePowerSchedulerCursor)
      (report : MachinePowerSchedulerReport)
      (claimPruningResult : MachineShutdownOccurrenceClaimPruningOutcome)
  | conflict (previousCursor : Option MachinePowerSchedulerCursor)
      (attemptedCursor : MachinePowerSchedulerCursor)
      (authoritativeCursor : Option MachinePowerSchedulerCursor)
      (report : MachinePowerSchedulerReport)
      (claimPruningResult : Option MachineShutdownOccurrenceClaimPruningOutcome)

/-! ## The tick -/

structure MachinePowerSchedulerConfiguration where
  zone : Scheduling.Zone
  policy : MachineOperatingPolicy
  executor : ExecutionConfiguration
  audit : Bool

namespace RunMachinePowerSchedulerTick

variable (configuration : MachinePowerSchedulerConfiguration) (tickedAt : Timestamp)

def emptyReport : PowerProg MachinePowerSchedulerReport :=
  required (createMachinePowerSchedulerReport {
    completedThrough := tickedAt, tickedThrough := tickedAt, occurrenceResults := []
    complete := true })

/-- What the report says about an execution. -/
def itemOf (occurrence : MachineShutdownOccurrence) :
    Except MachineShutdownOccurrenceExecutionFailure MachineShutdownOccurrenceExecutionResult →
      MachinePowerSchedulerItem
  | .error failure => .failed occurrence failure
  | .ok execution =>
    match execution.outcome with
    | .rejected decision report => .rejected occurrence decision report
    | _ => .completed execution

/-- The loop over the occurrences; the failure of one does not end it. -/
def executeOccurrences :
    List MachineShutdownOccurrence → PowerProg (List MachinePowerSchedulerItem)
  | [] => return []
  | occurrence :: occurrences => do
    let execution ← (executeAt configuration.executor true occurrence tickedAt).attempt
    let items ← executeOccurrences occurrences
    return itemOf occurrence execution :: items

/-- The completeness that the tick puts into the report, whose check computes it again. -/
def isComplete (items : List MachinePowerSchedulerItem) : Bool :=
  items.all fun
    | .completed execution =>
      match execution.outcome with
      | .preparationIncomplete _ | .notDue => false
      | _ => true
    | _ => false

/-- A tick that has something to do. -/
def process (current : MachinePowerSchedulerCursor) : PowerProg MachinePowerSchedulerResult := do
  let ticked : MachinePowerSchedulerCursor := ⟨tickedAt⟩
  let occurrences ← checked (createMachineShutdownOccurrencesForInterval configuration.zone
    configuration.policy current.completedThrough tickedAt)
  let items ← executeOccurrences configuration tickedAt occurrences
  let report ← required (createMachinePowerSchedulerReport {
    completedThrough := current.completedThrough, tickedThrough := tickedAt
    occurrenceResults := items, complete := isComplete items })
  let pruning ← ask (.pruneCompletedThrough current)
  if !report.complete then return .incomplete current report pruning
  else
    match ← ask (.advanceCursor (some current) ticked) with
    | .conflict cursor => return .conflict (some current) ticked cursor report (some pruning)
    | .advanced => return .advanced current ticked report pruning

def executeCore : PowerProg MachinePowerSchedulerResult := do
  let ticked : MachinePowerSchedulerCursor := ⟨tickedAt⟩
  match ← ask .readCursor with
  | none =>
    match ← ask (.advanceCursor none ticked) with
    | .conflict cursor =>
      let report ← emptyReport tickedAt
      return .conflict none ticked cursor report none
    | .advanced => return .initialized ticked
  | some current =>
    if tickedAt.text = current.completedThrough.text then return .idle current tickedAt
    else if tickedAt.text < current.completedThrough.text then
      return .blocked current tickedAt .clockRegression
    else if tickedAt.ms - current.completedThrough.ms > horizon then
      return .blocked current tickedAt .intervalTooLarge
    else process configuration tickedAt current

/-- What the audit trail is told about a result. -/
def mapSchedulerAudit (result : MachinePowerSchedulerResult) :
    AuditStatus × List (String × JsValue) :=
  let ticked := ("tickedThrough", JsValue.str tickedAt.text)
  let occurrenceCount (report : MachinePowerSchedulerReport) :=
    ("occurrenceCount", JsValue.num report.occurrenceResults.length)
  let completed (cursor : MachinePowerSchedulerCursor) :=
    ("completedThrough", JsValue.str cursor.completedThrough.text)
  match result with
  | .initialized _ =>
    (.succeeded, [("schedulerOutcome", .str "initialized"), ticked, ("complete", .bool true)])
  | .idle _ _ =>
    (.succeeded, [("schedulerOutcome", .str "idle"), ticked, ("complete", .bool true)])
  | .advanced _ cursor report _ =>
    (.succeeded, [("schedulerOutcome", .str "advanced"), ticked,
      ("complete", .bool report.complete), completed cursor, occurrenceCount report])
  | .blocked _ _ _ => (.rejected, [("schedulerOutcome", .str "blocked"), ticked])
  | .incomplete previous report _ =>
    (.rejected, [("schedulerOutcome", .str "incomplete"), ticked, completed previous,
      occurrenceCount report])
  | .conflict previous _ _ report _ =>
    (.rejected, [("schedulerOutcome", .str "conflict"), ticked] ++
      (previous.map completed).toList ++ [occurrenceCount report])

/-- The tick under the audit trail, if there is one. -/
def executeAsAuthorized : PowerProg MachinePowerSchedulerResult := do
  let core := executeCore configuration tickedAt
  if !configuration.audit then core
  else
    let _ ← ask (.auditBegin "run_machine_power_scheduler_tick" tickedAt)
    match ← core.attempt with
    | .error failure =>
      let _ ← (ask (.auditComplete .failed
        [("failureCode", .str "unexpected_execution_failure")])).attempt
      .throw failure
    | .ok result =>
      let (status, details) := mapSchedulerAudit tickedAt result
      let _ ← ask (.auditComplete status details)
      return result

end RunMachinePowerSchedulerTick

/-! ## What the machine has been shut down for -/

def shutDowns (log : PowerLog) : List MachineShutdownOccurrence :=
  log.filterMap fun event =>
    match event.call with
    | .requestShutdown occurrence _ => some occurrence
    | _ => none

theorem shutDowns_cons {call : PowerCall}
    {answer : Except MachineShutdownOccurrenceExecutionFailure (PowerAnswer call)} {log : PowerLog}
    (h : call.isShutdown = false) : shutDowns (⟨call, answer⟩ :: log) = shutDowns log := by
  cases call <;> first | rfl | cases h

/-- The text by which occurrences are compared with the cursor. -/
def timeText (occurrence : MachineShutdownOccurrence) : String := occurrence.scheduledFor.text

/-- The invariant: the machine is shut down for every occurrence once. -/
def ShutDownOnce (world : PowerWorld) : Prop :=
  Once timeText (shutDowns world.log) (listIn world.claims.file)
    ((documentIn world.cursor.file).map (·.completedThrough.text))

/-- The middle of a tick that has read `current`, after the shutdowns `done`. -/
structure During (current : MachinePowerSchedulerCursor) (done : List MachineShutdownOccurrence)
    (world : PowerWorld) : Prop where
  once : ShutDownOnce world
  cursor : world.cursor.file = some (.document current)
  done_eq : shutDowns world.log = done

/-- What the execution of an occurrence leaves: at most one shutdown more. -/
def Executed (current : MachinePowerSchedulerCursor) (done : List MachineShutdownOccurrence)
    (occurrence : MachineShutdownOccurrence) (processedAt : Timestamp) (world : PowerWorld) : Prop :=
  During current done world ∨
    occurrence.ExecutableAt processedAt ∧ During current (occurrence :: done) world

/-! ## Calls of the outside world -/

/-- A call that goes outside and does not shut down. -/
def PowerCall.IsHarmless : PowerCall → Prop
  | .claim _ | .pruneCompletedThrough _ | .readCursor | .advanceCursor _ _
  | .requestShutdown _ _ => False
  | _ => True

theorem PowerCall.IsQuiet.isHarmless {call : PowerCall} (h : call.IsQuiet) : call.IsHarmless := by
  cases call <;> trivial

section Harmless

variable {localeCompare : LocaleCompare} {occurrence : MachineShutdownOccurrence}
  {processedAt : Timestamp} {services : Bool} {decision : MachineShutdownReadinessDecision}

theorem only_orElse {P : PowerCall → Prop} {α : Type}
    {failure : MachineShutdownOccurrenceExecutionFailure} {block : PowerProg α}
    (h : Prog.Only P block) : Prog.Only P (orElse failure block) := by
  refine Prog.Only.bind (Prog.only_attempt.mpr h) fun r => ?_
  cases r <;> trivial

theorem only_decideOn (blockers : List MachineShutdownReadinessBlocker) :
    Prog.Only PowerCall.IsHarmless (decideOn localeCompare occurrence processedAt blockers) :=
  Prog.Only.bind (only_checked _) fun _ =>
    Prog.Only.bind (Prog.only_perform.mpr trivial) fun _ => Prog.only_pure

theorem only_evaluateAt :
    Prog.Only PowerCall.IsHarmless (evaluateAt localeCompare occurrence processedAt) := by
  have hquiet : ∀ call : PowerCall, call.IsQuiet →
      Prog.Only PowerCall.IsQuiet (ask call) := fun _ h => Prog.only_perform.mpr h
  have hcollect : ∀ {read : PowerProg JsValue} {area : MachineShutdownBlockerArea},
      Prog.Only PowerCall.IsQuiet read → Prog.Only PowerCall.IsHarmless (collect read area) :=
    fun h => (only_collect h).mono fun _ => PowerCall.IsQuiet.isHarmless
  unfold evaluateAt
  split
  · exact only_decideOn _
  split
  · exact only_decideOn _
  refine Prog.Only.bind (Prog.only_attempt.mpr (Prog.only_perform.mpr trivial)) fun answer => ?_
  split
  · exact only_decideOn _
  · refine Prog.Only.bind (only_collectService.mono fun _ => PowerCall.IsQuiet.isHarmless) fun _ => ?_
    refine Prog.Only.bind (hcollect (hquiet _ trivial)) fun _ => ?_
    refine Prog.Only.bind (hcollect (hquiet _ trivial)) fun _ => ?_
    refine Prog.Only.bind (hcollect (hquiet _ trivial)) fun _ => ?_
    refine Prog.Only.bind (hcollect (hquiet _ trivial)) fun _ => ?_
    exact only_decideOn _
  · exact only_decideOn _

theorem only_recordEvent_harmless {events : List MachineShutdownPreparationEvent}
    {kind : MachineShutdownPreparationEventKind} {detail : List (String × JsValue)} :
    Prog.Only PowerCall.IsHarmless (recordEvent occurrence processedAt events kind detail) :=
  only_recordEvent.mono fun _ => PowerCall.IsQuiet.isHarmless

theorem only_incompleteReport {P : PowerCall → Prop} {plan : MachineShutdownPreparationPlan}
    {steps : List MachineShutdownPreparationStepResult}
    {events : List MachineShutdownPreparationEvent}
    {final : Option MachineShutdownReadinessDecision} :
    Prog.Only P (incompleteReport occurrence processedAt decision plan steps events final) :=
  only_required _

theorem only_prepareSteps {plan : MachineShutdownPreparationPlan}
    {kinds : List MachineShutdownPreparationStep}
    {steps : List MachineShutdownPreparationStepResult}
    {events : List MachineShutdownPreparationEvent} :
    Prog.Only PowerCall.IsHarmless
      (prepareSteps services occurrence processedAt decision plan kinds steps events) := by
  have hincomplete : ∀ steps events, Prog.Only PowerCall.IsHarmless (do
      let report ← incompleteReport occurrence processedAt decision plan steps events none
      return (.inl report : Progress)) := fun _ _ =>
    Prog.Only.bind only_incompleteReport fun _ => Prog.only_pure
  have hfailure : ∀ {step code} {events : List MachineShutdownPreparationEvent},
      Prog.Only PowerCall.IsHarmless (recordFailure occurrence processedAt events step code) :=
    only_recordFailure.mono fun _ => PowerCall.IsQuiet.isHarmless
  induction kinds generalizing steps events with
  | nil => trivial
  | cons kind kinds ih =>
      unfold prepareSteps
      split
      · exact ih
      refine Prog.Only.bind (Prog.only_attempt.mpr
        (only_stepEffect.mono fun _ => PowerCall.IsQuiet.isHarmless)) fun _ => ?_
      refine Prog.Only.bind (only_required _) fun _ => ?_
      split
      · exact Prog.Only.bind hfailure fun _ => hincomplete _ _
      · refine Prog.Only.bind only_recordEvent_harmless fun recorded => ?_
        cases recorded with
        | some events => exact ih
        | none => exact Prog.Only.bind hfailure fun _ => hincomplete _ _

theorem only_concludePreparation {plan : MachineShutdownPreparationPlan}
    {steps : List MachineShutdownPreparationStepResult}
    {events : List MachineShutdownPreparationEvent} :
    Prog.Only PowerCall.IsHarmless
      (concludePreparation localeCompare occurrence processedAt decision plan steps events) := by
  refine Prog.Only.bind (only_required _) fun _ => ?_
  refine Prog.Only.bind only_recordEvent_harmless fun recorded => ?_
  cases recorded with
  | none => exact only_incompleteReport
  | some events =>
      refine Prog.Only.bind only_evaluateAt fun final => ?_
      refine Prog.Only.bind (only_required _) fun _ => ?_
      refine Prog.Only.bind only_recordEvent_harmless fun recorded => ?_
      cases recorded with
      | none =>
          exact Prog.Only.bind (only_recordFailure.mono fun _ => PowerCall.IsQuiet.isHarmless)
            fun _ => only_incompleteReport
      | some events => exact Prog.Only.bind (only_required _) fun _ => only_required _

theorem only_prepareAt :
    Prog.Only PowerCall.IsHarmless
      (prepareAt localeCompare services occurrence processedAt (some decision)) := by
  refine Prog.Only.bind Prog.only_pure fun initial => ?_
  refine Prog.Only.bind (only_checked _) fun planning => ?_
  cases planning with
  | blocked _ => exact only_required _
  | planned plan =>
      dsimp only
      split
      · exact only_required _
      refine Prog.Only.bind only_recordEvent_harmless fun recorded => ?_
      cases recorded with
      | none => exact only_incompleteReport
      | some events =>
          refine Prog.Only.bind only_prepareSteps fun progress => ?_
          rcases progress with report | ⟨steps, events⟩
          · exact Prog.only_pure
          · exact only_concludePreparation

end Harmless

/-! ## An execution -/

/-- What only says something about the shutdowns in the log. -/
def KeptByPorts (I : PowerWorld → Prop) : Prop :=
  ∀ (world : PowerWorld) (call : PowerCall)
    (answer : Except MachineShutdownOccurrenceExecutionFailure (PowerAnswer call)),
    call.isShutdown = false → I world → I { world with log := ⟨call, answer⟩ :: world.log }

section Execution

variable {localeCompare : LocaleCompare} {current : MachinePowerSchedulerCursor}
  {done : List MachineShutdownOccurrence} {occurrence : MachineShutdownOccurrence}
  {processedAt : Timestamp} {world : PowerWorld} {I J : PowerWorld → Prop}

theorem During.keptByPorts : KeptByPorts (During current done) := by
  intro world call answer hcall h
  refine ⟨?_, h.cursor, ?_⟩
  · rw [ShutDownOnce, shutDowns_cons hcall]
    exact h.once
  · rw [shutDowns_cons hcall]
    exact h.done_eq

theorem Executed.keptByPorts : KeptByPorts (Executed current done occurrence processedAt) := by
  rintro world call answer hcall (h | ⟨hexecutable, h⟩)
  · exact Or.inl (h.keptByPorts _ _ _ hcall)
  · exact Or.inr ⟨hexecutable, h.keptByPorts _ _ _ hcall⟩

theorem KeptByPorts.spec {α : Type} {program : PowerProg α} (hI : KeptByPorts I)
    (hprogram : Prog.Only PowerCall.IsHarmless program) (hworld : I world) :
    Prog.Spec systemStep I (program.interpret (implementation localeCompare)) (fun _ => I)
      world := by
  refine Prog.spec_interpret_of_only hprogram (fun call world hcall hworld => ?_) hworld
  cases call
  case claim | pruneCompletedThrough | readCursor | advanceCursor | requestShutdown =>
    exact absurd hcall id
  all_goals exact spec_port fun answer _ => ⟨hI _ _ _ rfl hworld, hI _ _ _ rfl hworld⟩

/-- Harmless calls first, and then the rest. -/
theorem KeptByPorts.bind {α β : Type} {program : PowerProg α} {next : α → PowerProg β}
    {Q : Except MachineShutdownOccurrenceExecutionFailure β → PowerWorld → Prop}
    (hI : KeptByPorts I) (hprogram : Prog.Only PowerCall.IsHarmless program) (hworld : I world)
    (hIJ : ∀ world, I world → J world)
    (hok : ∀ a world, I world →
      Prog.Spec systemStep J ((next a).interpret (implementation localeCompare)) Q world)
    (herr : ∀ e world, I world → Q (.error e) world) :
    Prog.Spec systemStep J ((program >>= next).interpret (implementation localeCompare)) Q
      world := by
  rw [Prog.interpret_bind, Prog.spec_bind]
  refine (hI.spec hprogram hworld).mono hIJ ?_
  rintro (e | a) world h
  · exact herr e world h
  · exact hok a world h

/-- A call whose answer is checked, where every error becomes one. -/
theorem orElse_ask_spec_system {α ε : Type} {failure : MachineShutdownOccurrenceExecutionFailure}
    {call : PowerCall} {check : PowerAnswer call → Except ε α}
    {Q : Except MachineShutdownOccurrenceExecutionFailure α → PowerWorld → Prop}
    (h : Prog.Spec systemStep J (implementation localeCompare call) (fun answer world =>
      Q (.error failure) world ∧
        ∀ value a, answer = .ok value → check value = .ok a → Q (.ok a) world) world) :
    Prog.Spec systemStep J ((orElse failure (do
      let value ← ask call
      checked (check value))).interpret (implementation localeCompare)) Q world := by
  simp only [orElse, Prog.interpret_bind, Prog.interpret_attempt, Prog.spec_bind,
    Prog.spec_attempt, Prog.interpret_perform]
  refine h.mono (fun _ h => h) ?_
  rintro (e | value) world ⟨herr, hok⟩
  · exact herr
  · simp only [checked, Prog.interpret_ofExcept, Prog.spec_ofExcept]
    cases hcheck : check value with
    | error e => exact herr
    | ok a => exact hok value a rfl hcheck

theorem result_spec_system {outcome : MachineShutdownOccurrenceExecutionOutcome} (h : I world) :
    Prog.Spec systemStep J ((result occurrence processedAt outcome).interpret
      (implementation localeCompare)) (fun _ => I) world := by
  rw [result, checked, Prog.interpret_ofExcept, Prog.spec_ofExcept]
  exact h

/-- A claim for an occurrence after the cursor is granted once. -/
theorem claim_during (hlater : current.completedThrough.text < timeText occurrence)
    (h : During current done world) :
    Prog.Spec systemStep (During current done) (implementation localeCompare (.claim occurrence))
      (fun answer world => During current done world ∧ ∀ value, answer = .ok value →
        createMachineShutdownOccurrenceClaimResult value = .ok .claimed →
        occurrence ∉ done ∧ occurrence ∈ listIn world.claims.file) world := by
  have hkeeps : ∀ state : FileState (List MachineShutdownOccurrence),
      listIn world.claims.file ⊆ listIn state.file →
      During current done { world with claims := state } :=
    fun state hsubset => ⟨h.once.claim hsubset, h.cursor, h.done_eq⟩
  refine inClaimFile_spec (claimIn_spec (fun _ => List.mergeSort_perm _ _) hkeeps ?_ ?_ ?_)
  · intro state hsubset hnew hclaimed
    refine ⟨hkeeps state hsubset, fun value _ _ => ⟨?_, hclaimed⟩⟩
    rw [← h.done_eq]
    refine h.once.not_mem ?_ hnew
    rw [h.cursor]
    rintro _ ⟨rfl⟩
    exact hlater
  · refine ⟨h, ?_⟩
    rintro _ ⟨rfl⟩ hclaimed
    cases hclaimed
  · exact fun e state hsubset => ⟨hkeeps state hsubset, fun _ hok => by cases hok⟩

/-- A claimed occurrence that was not shut down for is shut down for once. -/
theorem During.requestShutdown (h : During current done world) (hnew : occurrence ∉ done)
    (hclaimed : occurrence ∈ listIn world.claims.file) (processedAt : Timestamp)
    (answer : Except MachineShutdownOccurrenceExecutionFailure JsValue) :
    During current (occurrence :: done)
      { world with log := ⟨.requestShutdown occurrence processedAt, answer⟩ :: world.log } := by
  have hcons : shutDowns (⟨.requestShutdown occurrence processedAt, answer⟩ :: world.log) =
      occurrence :: shutDowns world.log := rfl
  refine ⟨?_, h.cursor, by rw [hcons, h.done_eq]⟩
  rw [ShutDownOnce, hcons]
  exact h.once.handOver (h.done_eq ▸ hnew) hclaimed

theorem shutDown_during {report : Option MachineShutdownPreparationReport}
    (hexecutable : occurrence.ExecutableAt processedAt) (h : During current done world)
    (hnew : occurrence ∉ done) (hclaimed : occurrence ∈ listIn world.claims.file) :
    Prog.Spec systemStep (Executed current done occurrence processedAt)
      ((shutDown occurrence processedAt report).interpret (implementation localeCompare))
      (fun _ => Executed current done occurrence processedAt) world := by
  rw [shutDown, Prog.interpret_bind, Prog.spec_bind]
  refine orElse_ask_spec_system (spec_port fun answer _ => ?_)
  have hwake := h.keptByPorts world (.schedule processedAt occurrence.wakeScheduledFor) answer rfl
  refine ⟨Or.inl hwake, Or.inl hwake, fun _ wake _ _ => ?_⟩
  dsimp only
  rw [Prog.interpret_bind, Prog.spec_bind]
  refine orElse_ask_spec_system (spec_port fun answer _ => ?_)
  have hshutdown : Executed current done occurrence processedAt _ :=
    Or.inr ⟨hexecutable, hwake.requestShutdown hnew hclaimed processedAt answer⟩
  refine ⟨hshutdown, hshutdown, fun _ shutdown _ _ => ?_⟩
  dsimp only
  rw [orElse, Prog.interpret_bind, Prog.spec_bind, Prog.interpret_attempt, Prog.spec_attempt]
  refine (result_spec_system hshutdown).mono (fun _ h => h) ?_
  rintro (e | result) world h
  · exact h
  · exact h

theorem claimAndShutDown_during {report : Option MachineShutdownPreparationReport}
    (hlater : current.completedThrough.text < timeText occurrence)
    (hexecutable : occurrence.ExecutableAt processedAt) (h : During current done world) :
    Prog.Spec systemStep (Executed current done occurrence processedAt)
      ((claimAndShutDown occurrence processedAt report).interpret (implementation localeCompare))
      (fun _ => Executed current done occurrence processedAt) world := by
  rw [claimAndShutDown, Prog.interpret_bind, Prog.spec_bind]
  refine orElse_ask_spec_system ((claim_during hlater h).mono (fun _ h => Or.inl h) ?_)
  rintro answer world ⟨h, hclaimed⟩
  refine ⟨Or.inl h, fun value outcome hvalue houtcome => ?_⟩
  cases outcome with
  | duplicate => exact result_spec_system (Or.inl h)
  | claimed =>
      obtain ⟨hnew, hclaimed⟩ := hclaimed value hvalue houtcome
      exact shutDown_during hexecutable h hnew hclaimed

theorem prepareAndShutDown_during {configuration : ExecutionConfiguration}
    {automaticallyPrepare : Bool} {decision : Option MachineShutdownReadinessDecision}
    (hlater : current.completedThrough.text < timeText occurrence)
    (hexecutable : occurrence.ExecutableAt processedAt) (h : During current done world) :
    Prog.Spec systemStep (Executed current done occurrence processedAt)
      ((prepareAndShutDown configuration automaticallyPrepare occurrence processedAt
        decision).interpret (implementation localeCompare))
      (fun _ => Executed current done occurrence processedAt) world := by
  unfold prepareAndShutDown
  split
  · split
    · exact claimAndShutDown_during hlater hexecutable h
    refine During.keptByPorts.bind only_prepareAt h (fun _ h => Or.inl h) (fun report world h => ?_)
      fun _ _ h => Or.inl h
    cases report.outcome with
    | blocked => exact result_spec_system (Or.inl h)
    | incomplete => exact result_spec_system (Or.inl h)
    | notRequired => exact claimAndShutDown_during hlater hexecutable h
    | prepared => exact claimAndShutDown_during hlater hexecutable h
  · exact claimAndShutDown_during hlater hexecutable h

theorem executeCore_during {configuration : ExecutionConfiguration} {automaticallyPrepare : Bool}
    (hlater : current.completedThrough.text < timeText occurrence)
    (h : During current done world) :
    Prog.Spec systemStep (Executed current done occurrence processedAt)
      ((executeCore configuration automaticallyPrepare occurrence processedAt).interpret
        (implementation localeCompare))
      (fun _ => Executed current done occurrence processedAt) world := by
  unfold executeCore
  split
  · exact result_spec_system (Or.inl h)
  next hdue =>
  split
  · exact result_spec_system (Or.inl h)
  next hstale =>
  have hexecutable : occurrence.ExecutableAt processedAt := ⟨not_lt.mp hdue, not_le.mp hstale⟩
  split
  · exact prepareAndShutDown_during hlater hexecutable h
  refine During.keptByPorts.bind only_evaluateAt h (fun _ h => Or.inl h)
    (fun decision world h => ?_) fun _ _ h => Or.inl h
  split
  · exact result_spec_system (Or.inl h)
  · exact prepareAndShutDown_during hlater hexecutable h

/-- **An execution.**  It shuts down at most once, for its own occurrence, and only
when that can be executed. -/
theorem executeAt_during {configuration : ExecutionConfiguration} {automaticallyPrepare : Bool}
    (hlater : current.completedThrough.text < timeText occurrence)
    (h : During current done world) :
    Prog.Spec systemStep (Executed current done occurrence processedAt)
      ((executeAt configuration automaticallyPrepare occurrence processedAt).interpret
        (implementation localeCompare))
      (fun _ => Executed current done occurrence processedAt) world := by
  unfold executeAt
  dsimp only
  split
  · exact executeCore_during hlater h
  have hask : ∀ {call : PowerCall}, call.IsHarmless → Prog.Only PowerCall.IsHarmless (ask call) :=
    fun h => Prog.only_perform.mpr h
  refine During.keptByPorts.bind (only_orElse (hask trivial)) h (fun _ h => Or.inl h)
    (fun _ world h => ?_) fun _ _ h => Or.inl h
  rw [Prog.interpret_bind, Prog.spec_bind, Prog.interpret_attempt, Prog.spec_attempt]
  refine (executeCore_during hlater h).mono (fun _ h => h) ?_
  rintro (e | result) world h
  · exact Executed.keptByPorts.spec
      (Prog.Only.bind (Prog.only_attempt.mpr (hask trivial)) fun _ => Prog.only_throw) h
  · exact Executed.keptByPorts.spec
      (Prog.Only.bind (only_orElse (hask trivial)) fun _ => Prog.only_pure) h

end Execution

/-! ## A tick -/

section Tick

variable {configuration : MachinePowerSchedulerConfiguration} {tickedAt : Timestamp}
  {current : MachinePowerSchedulerCursor} {done : List MachineShutdownOccurrence}
  {world : PowerWorld}

/-- What a tick leaves: at most one shutdown more. -/
def Ticked (done : List MachineShutdownOccurrence) (tickedAt : Timestamp) (world : PowerWorld) :
    Prop :=
  ShutDownOnce world ∧ (shutDowns world.log = done ∨
    ∃ occurrence : MachineShutdownOccurrence, occurrence.ExecutableAt tickedAt ∧
      shutDowns world.log = occurrence :: done)

/-- The same, with the cursor as it was. -/
def Looped (current : MachinePowerSchedulerCursor) (done : List MachineShutdownOccurrence)
    (tickedAt : Timestamp) (world : PowerWorld) : Prop :=
  During current done world ∨ ∃ occurrence : MachineShutdownOccurrence,
    occurrence.ExecutableAt tickedAt ∧ During current (occurrence :: done) world

theorem Looped.ticked (h : Looped current done tickedAt world) : Ticked done tickedAt world := by
  rcases h with h | ⟨occurrence, hexecutable, h⟩
  · exact ⟨h.once, Or.inl h.done_eq⟩
  · exact ⟨h.once, Or.inr ⟨occurrence, hexecutable, h.done_eq⟩⟩

theorem Ticked.keptByPorts : KeptByPorts (Ticked done tickedAt) := by
  rintro world call answer hcall ⟨honce, hdone⟩
  refine ⟨?_, ?_⟩
  · rw [ShutDownOnce, shutDowns_cons hcall]
    exact honce
  · rwa [shutDowns_cons hcall]

/-- The loop over the occurrences, when the machine may still be shut down for one
of them only. -/
theorem executeOccurrences_spec {occurrences : List MachineShutdownOccurrence}
    (hlater : ∀ occurrence ∈ occurrences,
      current.completedThrough.text < timeText occurrence)
    (hone : occurrences.Pairwise fun a b => ¬ (a.ExecutableAt tickedAt ∧ b.ExecutableAt tickedAt))
    (h : During current done world ∨ ∃ occurrence : MachineShutdownOccurrence,
      occurrence.ExecutableAt tickedAt ∧ (∀ o ∈ occurrences, ¬ o.ExecutableAt tickedAt) ∧
      During current (occurrence :: done) world) :
    Prog.Spec systemStep (Looped current done tickedAt)
      ((RunMachinePowerSchedulerTick.executeOccurrences configuration tickedAt
        occurrences).interpret (implementation configuration.executor.localeCompare))
      (fun _ => Looped current done tickedAt) world := by
  induction occurrences generalizing world with
  | nil => exact h.imp_right fun ⟨occurrence, hexecutable, _, h⟩ => ⟨occurrence, hexecutable, h⟩
  | cons occurrence occurrences ih =>
      obtain ⟨hfirst, hone⟩ := List.pairwise_cons.mp hone
      have hlaters := fun o ho => hlater o (List.mem_cons_of_mem _ ho)
      have hlater := hlater occurrence List.mem_cons_self
      rw [RunMachinePowerSchedulerTick.executeOccurrences, Prog.interpret_bind, Prog.spec_bind,
        Prog.interpret_attempt, Prog.spec_attempt]
      -- what the first occurrence leaves, and then the others
      suffices hleaves : Prog.Spec systemStep (Looped current done tickedAt)
          ((executeAt configuration.executor true occurrence tickedAt).interpret
            (implementation configuration.executor.localeCompare))
          (fun _ world => During current done world ∨ ∃ occurrence : MachineShutdownOccurrence,
            occurrence.ExecutableAt tickedAt ∧ (∀ o ∈ occurrences, ¬ o.ExecutableAt tickedAt) ∧
            During current (occurrence :: done) world) world by
        refine hleaves.mono (fun _ h => h) fun execution world h => ?_
        dsimp only
        rw [Prog.interpret_bind, Prog.spec_bind]
        refine (ih hlaters hone h).mono (fun _ h => h) ?_
        rintro (e | items) world h
        · exact h
        · exact h
      rcases h with h | ⟨earlier, hexecutable, hnone, h⟩
      · refine (executeAt_during hlater h).mono ?_ ?_
        · exact fun world h => h.imp_right fun ⟨hexecutable, h⟩ => ⟨occurrence, hexecutable, h⟩
        · rintro _ world (h | ⟨hexecutable, h⟩)
          · exact Or.inl h
          · exact Or.inr ⟨occurrence, hexecutable, fun o ho hboth =>
              hfirst o ho ⟨hexecutable, hboth⟩, h⟩
      · have hnot := hnone occurrence List.mem_cons_self
        have hnone : ∀ o ∈ occurrences, ¬ o.ExecutableAt tickedAt :=
          fun o ho => hnone o (List.mem_cons_of_mem _ ho)
        refine (executeAt_during hlater h).mono ?_ ?_
        · rintro world (h | ⟨hboth, -⟩)
          · exact Or.inr ⟨earlier, hexecutable, h⟩
          · exact absurd hboth hnot
        · rintro _ world (h | ⟨hboth, -⟩)
          · exact Or.inr ⟨earlier, hexecutable, hnone, h⟩
          · exact absurd hboth hnot

/-- Pruning drops no claim that is needed: the cursor has passed it. -/
theorem prune_spec {localeCompare : LocaleCompare} (h : Looped current done tickedAt world) :
    Prog.Spec systemStep (Looped current done tickedAt)
      (implementation localeCompare (.pruneCompletedThrough current))
      (fun _ => Looped current done tickedAt) world := by
  have hkeeps : ∀ {done : List MachineShutdownOccurrence} {world : PowerWorld},
      During current done world → ∀ state : FileState (List MachineShutdownOccurrence),
      (∀ x ∈ listIn world.claims.file,
        decide (current.completedThrough.text < timeText x) = true → x ∈ listIn state.file) →
      During current done { world with claims := state } := by
    intro done world h state hclaims
    refine ⟨h.once.prune fun x hx hahead => ?_, h.cursor, h.done_eq⟩
    refine hclaims x hx (decide_eq_true (hahead _ ?_))
    rw [h.cursor]
    rfl
  refine inClaimFile_spec (pruneIn_spec fun state hclaims => ?_)
  rcases h with h | ⟨occurrence, hexecutable, h⟩
  · exact Or.inl (hkeeps h state hclaims)
  · exact Or.inr ⟨occurrence, hexecutable, hkeeps h state hclaims⟩

/-- The cursor only moves on, so what it has passed stays behind. -/
theorem advanceCursor_spec {localeCompare : LocaleCompare}
    {expected : Option MachinePowerSchedulerCursor} {next : MachinePowerSchedulerCursor}
    (h : Ticked done tickedAt world) :
    Prog.Spec systemStep (Ticked done tickedAt)
      (implementation localeCompare (.advanceCursor expected next))
      (fun _ => Ticked done tickedAt) world := by
  obtain ⟨honce, hdone⟩ := h
  have hsame : ∀ state : FileState MachinePowerSchedulerCursor, state.file = world.cursor.file →
      Ticked done tickedAt { world with cursor := state } := by
    intro state hfile
    refine ⟨?_, hdone⟩
    rw [ShutDownOnce, hfile]
    exact honce
  refine inCursorFile_spec (advanceIn_spec hsame ?_ (fun _ => ⟨honce, hdone⟩)
    fun _ => hsame)
  intro hexpected hforward state hfile
  have hadvanced : Ticked done tickedAt { world with cursor := state } := by
    refine ⟨?_, hdone⟩
    rw [ShutDownOnce, hfile]
    refine honce.advance ?_
    rw [← hexpected]
    intro text htext
    obtain ⟨cursor, hcursor, rfl⟩ := Option.mem_map.mp htext
    exact (of_decide_eq_true (hforward cursor hcursor)).le
  exact ⟨hadvanced, hadvanced⟩

/-- The occurrences of an interval come after its start, by their texts too. -/
theorem text_lt_of_mem_occurrences {zone : Scheduling.Zone} {policy : MachineOperatingPolicy}
    {completedThrough : Timestamp} {occurrences : List MachineShutdownOccurrence}
    (h : createMachineShutdownOccurrencesForInterval zone policy completedThrough tickedAt =
      .ok occurrences) (hlater : completedThrough.text < tickedAt.text)
    {occurrence : MachineShutdownOccurrence} (hmem : occurrence ∈ occurrences) :
    completedThrough.text < timeText occurrence := by
  obtain ⟨-, hlength, -⟩ := occurrences_cases h
  obtain ⟨hafter, hbefore⟩ := occurrences_bounds h hmem
  refine Timestamp.text_lt_of_between hafter hbefore ?_ hlater
  have hday : msPerDay = 86400000 := rfl
  unfold horizon at hlength
  omega

theorem process_spec (hlater : current.completedThrough.text < tickedAt.text)
    (h : During current done world) :
    Prog.Spec systemStep (Ticked done tickedAt)
      ((RunMachinePowerSchedulerTick.process configuration tickedAt current).interpret
        (implementation configuration.executor.localeCompare))
      (fun _ => Ticked done tickedAt) world := by
  have hstart : Looped current done tickedAt world := Or.inl h
  rw [RunMachinePowerSchedulerTick.process, Prog.interpret_bind, Prog.spec_bind, checked,
    Prog.interpret_ofExcept, Prog.spec_ofExcept]
  cases hoccurrences : createMachineShutdownOccurrencesForInterval configuration.zone
      configuration.policy current.completedThrough tickedAt with
  | error e => exact hstart.ticked
  | ok occurrences =>
      dsimp only [Except.mapError]
      rw [Prog.interpret_bind, Prog.spec_bind]
      refine (executeOccurrences_spec
        (fun o ho => text_lt_of_mem_occurrences hoccurrences hlater ho)
        (executable_pairwise (occurrences_pairwise hoccurrences) tickedAt)
        (Or.inl h)).mono (fun _ h => h.ticked) ?_
      rintro (e | items) world h
      · exact h.ticked
      dsimp only
      rw [Prog.interpret_bind, Prog.spec_bind]
      cases createMachinePowerSchedulerReport _ with
      | none => exact h.ticked
      | some report =>
          rw [required, Prog.interpret_pure', Prog.spec_pure']
          dsimp only
          rw [Prog.interpret_bind, Prog.spec_bind, Prog.interpret_perform]
          refine (prune_spec h).mono (fun _ h => h.ticked) ?_
          rintro (e | pruning) world h
          · exact h.ticked
          dsimp only
          split
          · exact h.ticked
          rw [Prog.interpret_bind, Prog.spec_bind, Prog.interpret_perform]
          refine (advanceCursor_spec h.ticked).mono (fun _ h => h) ?_
          rintro (e | outcome) world h
          · exact h
          · cases outcome <;> exact h

theorem runTickCore_spec (h : ShutDownOnce world) :
    Prog.Spec systemStep (Ticked (shutDowns world.log) tickedAt)
      ((RunMachinePowerSchedulerTick.executeCore configuration tickedAt).interpret
        (implementation configuration.executor.localeCompare))
      (fun _ => Ticked (shutDowns world.log) tickedAt) world := by
  have hstart : Ticked (shutDowns world.log) tickedAt world := ⟨h, Or.inl rfl⟩
  rw [RunMachinePowerSchedulerTick.executeCore, Prog.interpret_bind, Prog.spec_bind,
    Prog.interpret_perform]
  refine inCursorFile_spec (readDocument_spec hstart ?_ fun e => hstart)
  intro current hcurrent
  cases current with
  | none =>
      dsimp only
      rw [Prog.interpret_bind, Prog.spec_bind, Prog.interpret_perform]
      refine (advanceCursor_spec hstart).mono (fun _ h => h) ?_
      rintro (e | outcome) world' h
      · exact h
      cases outcome with
      | advanced => exact h
      | conflict cursor =>
          exact Ticked.keptByPorts.spec
            (Prog.Only.bind (only_required _) fun _ => Prog.only_pure) h
  | some current =>
      obtain ⟨hfile, -⟩ := hcurrent
      dsimp only
      split
      · exact hstart
      next hne =>
      split
      · exact hstart
      next hnot =>
      split
      · exact hstart
      have hlater := lt_of_le_of_ne (not_lt.mp hnot) (Ne.symm hne)
      exact process_spec hlater ⟨h, hfile, rfl⟩

/-- **A tick.**  Wherever it stops, the machine has been shut down at most once more. -/
theorem tick_spec (h : ShutDownOnce world) :
    Prog.Spec systemStep (Ticked (shutDowns world.log) tickedAt)
      ((RunMachinePowerSchedulerTick.executeAsAuthorized configuration tickedAt).interpret
        (implementation configuration.executor.localeCompare))
      (fun _ => Ticked (shutDowns world.log) tickedAt) world := by
  have hask : ∀ {call : PowerCall}, call.IsHarmless → Prog.Only PowerCall.IsHarmless (ask call) :=
    fun h => Prog.only_perform.mpr h
  unfold RunMachinePowerSchedulerTick.executeAsAuthorized
  dsimp only
  split
  · exact runTickCore_spec h
  have hbegin : ∀ world', ShutDownOnce world' → shutDowns world'.log = shutDowns world.log →
      Prog.Spec systemStep (Ticked (shutDowns world.log) tickedAt)
        ((RunMachinePowerSchedulerTick.executeCore configuration tickedAt).interpret
          (implementation configuration.executor.localeCompare))
        (fun _ => Ticked (shutDowns world.log) tickedAt) world' := by
    intro world' h hsame
    rw [← hsame]
    exact runTickCore_spec h
  rw [Prog.interpret_bind, Prog.spec_bind, Prog.interpret_perform]
  refine spec_port fun answer _ => ?_
  have hsame : shutDowns (⟨.auditBegin "run_machine_power_scheduler_tick" tickedAt, answer⟩ ::
      world.log) = shutDowns world.log := shutDowns_cons rfl
  have hticked : Ticked (shutDowns world.log) tickedAt _ :=
    Ticked.keptByPorts world (.auditBegin "run_machine_power_scheduler_tick" tickedAt) answer rfl
      ⟨h, Or.inl rfl⟩
  refine ⟨hticked, ?_⟩
  cases answer with
  | error e => exact hticked
  | ok value =>
      dsimp only
      rw [Prog.interpret_bind, Prog.spec_bind, Prog.interpret_attempt, Prog.spec_attempt]
      refine (hbegin _ hticked.1 hsame).mono (fun _ h => h) ?_
      rintro (e | result) world h
      · exact Ticked.keptByPorts.spec
          (Prog.Only.bind (Prog.only_attempt.mpr (hask trivial)) fun _ => Prog.only_throw) h
      · exact Ticked.keptByPorts.spec
          (Prog.Only.bind (hask trivial) fun _ => Prog.only_pure) h

end Tick

/-! ## Ticks -/

section Ticks

variable (configuration : MachinePowerSchedulerConfiguration)

def tick (tickedAt : Timestamp) : SystemProg MachinePowerSchedulerResult :=
  (RunMachinePowerSchedulerTick.executeAsAuthorized configuration tickedAt).interpret
    (implementation configuration.executor.localeCompare)

/-- Ticks one after another, each of which may end or stop anywhere; the clock may
show any time, and every port may answer or fail as it likes. -/
inductive Ticks (start : PowerWorld) : PowerWorld → Prop where
  | start : Ticks start start
  | tick {world world' : PowerWorld} (tickedAt : Timestamp) :
      Ticks start world → Prog.Reach systemStep (tick configuration tickedAt) world world' →
      Ticks start world'

variable {configuration} {start world : PowerWorld}

theorem shutDownOnce_of_ticks (hempty : start.log = []) (h : Ticks configuration start world) :
    ShutDownOnce world := by
  induction h with
  | start =>
      rw [ShutDownOnce, hempty]
      exact Once.empty
  | tick tickedAt _ hreach ih =>
      have hstart : Ticked (shutDowns _) tickedAt _ := ⟨ih, Or.inl rfl⟩
      exact ((tick_spec ih).reach hstart hreach).1

/-- **At most once.**  Over any ticks the machine is shut down at most once for an
occurrence; in a tick it is shut down at most once, as at most one occurrence of an
interval can be executed. -/
theorem ticks_shut_down_once (hempty : start.log = []) (h : Ticks configuration start world) :
    (shutDowns world.log).Nodup ∧ ∀ tickedAt,
      (∀ world', Prog.Reach systemStep (tick configuration tickedAt) world world' →
        shutDowns world'.log = shutDowns world.log ∨
          ∃ occurrence, shutDowns world'.log = occurrence :: shutDowns world.log) ∧
      ∀ completedThrough occurrences, createMachineShutdownOccurrencesForInterval
          configuration.zone configuration.policy completedThrough tickedAt = .ok occurrences →
        (occurrences.filter fun occurrence => occurrence.ExecutableAt tickedAt).length ≤ 1 := by
  have honce := shutDownOnce_of_ticks hempty h
  refine ⟨honce.nodup, fun tickedAt => ⟨fun world' hreach => ?_, fun _ occurrences hok => ?_⟩⟩
  · have hstart : Ticked (shutDowns world.log) tickedAt world := ⟨honce, Or.inl rfl⟩
    have hticked := (tick_spec honce).reach hstart hreach
    exact hticked.2.imp_right fun ⟨occurrence, _, heq⟩ => ⟨occurrence, heq⟩
  · exact executable_length_le hok tickedAt

end Ticks

/-! ### A lost answer -/

/-- Friday from 18:00 to 23:00, with a break of two minutes at 22:00. -/
def fridayEvening : MachineWeeklyOperatingSchedule where
  windows := [⟨.friday, 1080, 1320, by decide⟩, ⟨.friday, 1322, 1380, by decide⟩]
  count := by decide
  ordered := by decide

def eveningConfiguration : MachinePowerSchedulerConfiguration where
  zone := Scheduling.fixedOffset 0
  policy := .scheduled fridayEvening
  executor := ⟨false, none, false, compare⟩
  audit := false

/-- The cursor stands a minute before the break, and nothing is claimed. -/
def beforeBreak : PowerWorld where
  claims := ⟨none, none⟩
  cursor := ⟨some (.document ⟨⟨1767995940000, by decide⟩⟩), none⟩
  log := []

/-- A machine that arms its alarm, and goes down before it can say so. -/
def goDown : (call : PowerCall) →
    Except MachineShutdownOccurrenceExecutionFailure (PowerAnswer call)
  | .schedule requestedAt scheduledFor => .ok (.obj [("operation", .str "schedule"),
      ("requestedAt", .str requestedAt.text), ("outcome", .str "scheduled"),
      ("before", .obj [("state", .str "not_scheduled")]),
      ("after", .obj [("state", .str "scheduled"), ("scheduledFor", .str scheduledFor.text)])])
  | .decided _ => .ok ()
  | _ => .error .unexpectedExecutionFailure

theorem answers_goDown (call : PowerCall) : Answers (fun _ => True) call (goDown call) := by
  cases call <;> trivial

def tickLosingAnswers (tickedAt : Timestamp) (world : PowerWorld) : PowerWorld :=
  (Prog.run (LedgerWorld.answering goDown .unexpectedExecutionFailure)
    (tick eveningConfiguration tickedAt) world).2

theorem evening_inRange :
    -8640000000000000 ≤ (1767996000000 : Int) ∧ (1767996000000 : Int) ≤ 8640000000000000 := by decide

/-- The world after ticks at 22:00 and at 22:01. -/
def duringBreak : PowerWorld :=
  tickLosingAnswers ⟨1767996060000, by decide⟩
    (tickLosingAnswers ⟨1767996000000, evening_inRange⟩ beforeBreak)

/-- The first tick shuts down and learns nothing of it; the second finds the
occurrence claimed. -/
theorem ticks_shut_down_once_duringBreak :
    (shutDowns duringBreak.log).map (·.scheduledFor.ms) = [1767996000000] ∧
      documentIn duringBreak.cursor.file = some ⟨⟨1767996060000, by decide⟩⟩ ∧
      (shutDowns duringBreak.log).Nodup := by
  have htick : ∀ tickedAt world, Prog.Reach systemStep (tick eveningConfiguration tickedAt) world
      (tickLosingAnswers tickedAt world) := fun tickedAt world =>
    (Prog.exec_run (ledgerStep_answering _ answers_goDown) _ world).reach
  have hruns : Ticks eveningConfiguration beforeBreak duringBreak :=
    .tick _ (.tick _ .start (htick _ _)) (htick _ _)
  exact ⟨by decide +kernel, by decide +kernel, (ticks_shut_down_once rfl hruns).1⟩

end AtlasManager.Power
