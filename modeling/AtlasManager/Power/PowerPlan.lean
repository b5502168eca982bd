import AtlasManager.Power.OccurrenceInterval

/-!
# AtlasManager.Power.PowerPlan

What the machine's operating policy plans at an instant: the next shutdown and
the next wake, and the shutdown occurrence that follows from them.

* `MachinePowerPlan` carries that its transitions come in the order that the
  expectation asks for; checking its record again gives it back;
* `findNextTransitions_skip`, `findNextTransitions_change` -- the search for the
  next two transitions, one candidate at a time;
* `ScheduledPolicyMachineShutdownConfirmationReader` -- whether a policy has an
  occurrence.
-/

namespace AtlasManager.Power

open AtlasManager.Lib AtlasManager.Scheduling

/-! ## Plans -/

/-- Is the machine to run, to be off, or left to its user? -/
inductive MachinePowerExpectation where
  | operating
  | offline
  | manual
  deriving DecidableEq, Repr

/-- The name of an expectation in the record of a plan. -/
def MachinePowerExpectation.text : MachinePowerExpectation → String
  | operating => "operating"
  | offline => "offline"
  | manual => "manual"

/-- The expectations that a record can name. -/
def machinePowerExpectations : List MachinePowerExpectation := [.operating, .offline, .manual]

/-- The next shutdown or wake, where there is one. -/
inductive MachinePowerTransitionPlan where
  | notPlanned
  | planned (scheduledFor : Timestamp)
  deriving DecidableEq

/-- The record of a planned transition. -/
def MachinePowerTransitionPlan.toJs : MachinePowerTransitionPlan → JsValue
  | notPlanned => .obj [("state", .str "not_planned")]
  | planned scheduledFor =>
    .obj [("state", .str "planned"), ("scheduledFor", .str scheduledFor.text)]

/-- What can be wrong with a planned transition. -/
inductive MachinePowerTransitionPlanValidationErrorCode where
  | invalidRecord
  | invalidField
  | invalidState
  | missingScheduledFor
  | invalidScheduledFor
  | unexpectedScheduledFor
  deriving DecidableEq, Repr

/-- Only a planned transition has an instant. -/
def createMachinePowerTransitionPlan (input : JsValue) :
    Except MachinePowerTransitionPlanValidationErrorCode MachinePowerTransitionPlan := do
  let some fields := input.asRecord | throw .invalidRecord
  if hasFieldOutside ["state", "scheduledFor"] fields then throw .invalidField
  match field fields "state" with
  | .str "planned" =>
    if !hasOwn fields "scheduledFor" then throw .missingScheduledFor
    let some scheduledFor := (field fields "scheduledFor").timestamp? | throw .invalidScheduledFor
    return .planned scheduledFor
  | .str "not_planned" =>
    if hasOwn fields "scheduledFor" then throw .unexpectedScheduledFor
    return .notPlanned
  | _ => throw .invalidState

/-- Checking a planned transition again gives it back. -/
@[simp] theorem createMachinePowerTransitionPlan_toJs (plan : MachinePowerTransitionPlan) :
    createMachinePowerTransitionPlan plan.toJs = .ok plan := by
  cases plan with
  | notPlanned => rfl
  | planned scheduledFor =>
      have htime : field [("state", JsValue.str "planned"),
          ("scheduledFor", .str scheduledFor.text)] "scheduledFor" = .str scheduledFor.text := rfl
      have hfields : hasFieldOutside ["state", "scheduledFor"] [("state", JsValue.str "planned"),
          ("scheduledFor", .str scheduledFor.text)] = false := rfl
      simp only [createMachinePowerTransitionPlan, MachinePowerTransitionPlan.toJs,
        JsValue.asRecord, hfields, htime, JsValue.timestamp?_text]
      rfl

/-- `validateTransitionCombination`: the transitions fit the expectation, and come
after the instant of the plan in the order that the expectation asks for. -/
def isTransitionCombination (evaluatedAt : Timestamp) (expectation : MachinePowerExpectation)
    (nextShutdown nextWake : MachinePowerTransitionPlan) : Bool :=
  match expectation, nextShutdown, nextWake with
  | .manual, .notPlanned, .notPlanned => true
  | .manual, _, _ => false
  | .operating, .planned shutdown, .planned wake =>
    evaluatedAt.ms < shutdown.ms ∧ shutdown.ms < wake.ms
  | .offline, .planned shutdown, .planned wake =>
    evaluatedAt.ms < wake.ms ∧ wake.ms < shutdown.ms
  | .operating, .notPlanned, .notPlanned => true
  | _, _, _ => false

/-- A plan, whose transitions fit its expectation. -/
structure MachinePowerPlan where
  evaluatedAt : Timestamp
  expectation : MachinePowerExpectation
  nextShutdown : MachinePowerTransitionPlan
  nextWake : MachinePowerTransitionPlan
  combination : isTransitionCombination evaluatedAt expectation nextShutdown nextWake = true
  deriving DecidableEq

/-- What can be wrong with the record of a plan. -/
inductive MachinePowerPlanValidationErrorCode where
  | invalidRecord
  | invalidField
  | invalidEvaluatedAt
  | invalidExpectation
  | invalidNextShutdown
  | invalidNextWake
  | invalidTransitionCombination
  deriving DecidableEq, Repr

/-- The record of a plan, as the evaluator writes it. -/
def powerPlanRecord (evaluatedAt : Timestamp) (expectation : MachinePowerExpectation)
    (nextShutdown nextWake : MachinePowerTransitionPlan) : JsValue :=
  .obj [("evaluatedAt", .str evaluatedAt.text), ("expectation", .str expectation.text),
    ("nextShutdown", nextShutdown.toJs), ("nextWake", nextWake.toJs)]

/-- The record of a plan. -/
def MachinePowerPlan.toJs (plan : MachinePowerPlan) : JsValue :=
  powerPlanRecord plan.evaluatedAt plan.expectation plan.nextShutdown plan.nextWake

/-- The parts are checked for themselves first, and then against each other. -/
def createMachinePowerPlan (input : JsValue) :
    Except MachinePowerPlanValidationErrorCode MachinePowerPlan := do
  let some fields := input.asRecord | throw .invalidRecord
  let names := ["evaluatedAt", "expectation", "nextShutdown", "nextWake"]
  if fields.length ≠ 4 ∨ hasFieldOutside names fields then throw .invalidField
  let some evaluatedAt := (field fields "evaluatedAt").timestamp? | throw .invalidEvaluatedAt
  let some expectation :=
    oneOf machinePowerExpectations MachinePowerExpectation.text (field fields "expectation")
    | throw .invalidExpectation
  let .ok nextShutdown := createMachinePowerTransitionPlan (field fields "nextShutdown")
    | throw .invalidNextShutdown
  let .ok nextWake := createMachinePowerTransitionPlan (field fields "nextWake")
    | throw .invalidNextWake
  if h : isTransitionCombination evaluatedAt expectation nextShutdown nextWake = true then
    return ⟨evaluatedAt, expectation, nextShutdown, nextWake, h⟩
  else throw .invalidTransitionCombination

/-- Only the combination of the transitions of such a record can be wrong. -/
theorem createMachinePowerPlan_record {evaluatedAt : Timestamp}
    {expectation : MachinePowerExpectation} {nextShutdown nextWake : MachinePowerTransitionPlan}
    (h : isTransitionCombination evaluatedAt expectation nextShutdown nextWake = true) :
    createMachinePowerPlan (powerPlanRecord evaluatedAt expectation nextShutdown nextWake) =
      .ok ⟨evaluatedAt, expectation, nextShutdown, nextWake, h⟩ := by
  have hexpectation : oneOf machinePowerExpectations MachinePowerExpectation.text
      (.str expectation.text) = some expectation := by
    cases expectation <;> decide
  have hfields : hasFieldOutside ["evaluatedAt", "expectation", "nextShutdown", "nextWake"]
      [("evaluatedAt", JsValue.str evaluatedAt.text), ("expectation", .str expectation.text),
        ("nextShutdown", nextShutdown.toJs), ("nextWake", nextWake.toJs)] = false := rfl
  have hfield : ∀ name value, [("evaluatedAt", JsValue.str evaluatedAt.text),
      ("expectation", .str expectation.text), ("nextShutdown", nextShutdown.toJs),
      ("nextWake", nextWake.toJs)].lookup name = some value →
      field [("evaluatedAt", JsValue.str evaluatedAt.text),
        ("expectation", .str expectation.text), ("nextShutdown", nextShutdown.toJs),
        ("nextWake", nextWake.toJs)] name = value := by
    intro name value hlookup
    rw [field, hlookup]
    rfl
  simp only [createMachinePowerPlan, powerPlanRecord, JsValue.asRecord, hfields,
    hfield "evaluatedAt" _ rfl, hfield "expectation" _ rfl, hfield "nextShutdown" _ rfl,
    hfield "nextWake" _ rfl, JsValue.timestamp?_text, hexpectation,
    createMachinePowerTransitionPlan_toJs, h, dite_true]
  rfl

/-- Checking a plan again gives it back. -/
@[simp] theorem createMachinePowerPlan_toJs (plan : MachinePowerPlan) :
    createMachinePowerPlan plan.toJs = .ok plan := createMachinePowerPlan_record plan.combination

/-! ## Evaluating a policy -/

/-- What an evaluation can throw. -/
inductive MachinePowerPlanEvaluationError where
  | invalidEvaluatedAt
  | transitionSearchExhausted
  /-- thrown by the check of the plan -/
  | invalidPlan (code : MachinePowerPlanValidationErrorCode)
  /-- an instant beyond the range of dates -/
  | invalidDate
  deriving DecidableEq, Repr

/-- The first two candidates whose expectation is not that of the one before. -/
def findNextTransitions (operatingAt : Int → Bool) (previousExpectation : Bool)
    (transitions : List Timestamp) :
    List Int → Except MachinePowerPlanEvaluationError (List Timestamp)
  | [] => .ok transitions
  | candidate :: candidates =>
    match Timestamp.ofMs? candidate with
    | none => .error .invalidDate
    | some instant =>
      let expectation := operatingAt candidate
      if expectation ≠ previousExpectation then
        let transitions := transitions ++ [instant]
        if transitions.length = 2 then .ok transitions
        else findNextTransitions operatingAt expectation transitions candidates
      else findNextTransitions operatingAt previousExpectation transitions candidates

/-- The evaluator checks its own plan before it returns it. -/
def checkedPlan (evaluatedAt : Timestamp) (expectation : MachinePowerExpectation)
    (nextShutdown nextWake : MachinePowerTransitionPlan) :
    Except MachinePowerPlanEvaluationError MachinePowerPlan :=
  match createMachinePowerPlan
      (powerPlanRecord evaluatedAt expectation nextShutdown nextWake) with
  | .ok plan => .ok plan
  | .error code => .error (.invalidPlan code)

/-- A plan whose transitions fit passes this check. -/
theorem checkedPlan_eq {evaluatedAt : Timestamp} {expectation : MachinePowerExpectation}
    {nextShutdown nextWake : MachinePowerTransitionPlan}
    (h : isTransitionCombination evaluatedAt expectation nextShutdown nextWake = true) :
    checkedPlan evaluatedAt expectation nextShutdown nextWake =
      .ok ⟨evaluatedAt, expectation, nextShutdown, nextWake, h⟩ := by
  unfold checkedPlan
  simp only [createMachinePowerPlan_record h]

/-- The search looks at every full minute behind the instant, up to the horizon.  The first change is the
shutdown of a machine that is to run, and the wake of one that is to be off. -/
def evaluateScheduledPolicy (zone : Zone) (schedule : MachineWeeklyOperatingSchedule)
    (evaluatedAt : Timestamp) : Except MachinePowerPlanEvaluationError MachinePowerPlan := do
  let initialExpectation := isOperating zone schedule evaluatedAt.ms
  let firstCandidate := evaluatedAt.ms / 60000 * 60000 + 60000
  let transitions ← findNextTransitions (isOperating zone schedule) initialExpectation []
    (minutesUpTo firstCandidate (evaluatedAt.ms + horizon))
  match transitions with
  | first :: second :: _ =>
    if initialExpectation then checkedPlan evaluatedAt .operating (.planned first) (.planned second)
    else checkedPlan evaluatedAt .offline (.planned second) (.planned first)
  | _ => .error .transitionSearchExhausted

/-- `evaluateMachinePowerPlan`: without a schedule no transition is planned. -/
def evaluateMachinePowerPlan (zone : Zone) (policy : MachineOperatingPolicy)
    (evaluatedAt : String) : Except MachinePowerPlanEvaluationError MachinePowerPlan :=
  match Timestamp.ofText? evaluatedAt with
  | none => .error .invalidEvaluatedAt
  | some evaluatedAt =>
    match policy with
    | .alwaysOn => checkedPlan evaluatedAt .operating .notPlanned .notPlanned
    | .manual => checkedPlan evaluatedAt .manual .notPlanned .notPlanned
    | .scheduled schedule => evaluateScheduledPolicy zone schedule evaluatedAt

/-! ## The occurrence of a plan -/

/-- The occurrence that a plan leads to, where there is one. -/
inductive MachineShutdownOccurrencePlan where
  | notPlanned
  | planned (occurrence : MachineShutdownOccurrence)
  deriving DecidableEq

/-- What can be wrong with the plan of an occurrence. -/
inductive MachineShutdownOccurrencePlanValidationErrorCode where
  | invalidRecord
  | invalidField
  | invalidState
  | missingOccurrence
  | unexpectedOccurrence
  | invalidOccurrence
  | invalidPowerPlan
  deriving DecidableEq, Repr

/-- The plan of an occurrence is checked as it is read from a port. -/
def createMachineShutdownOccurrencePlan (input : JsValue) :
    Except MachineShutdownOccurrencePlanValidationErrorCode MachineShutdownOccurrencePlan := do
  let some fields := input.asRecord | throw .invalidRecord
  if hasFieldOutside ["state", "occurrence"] fields then throw .invalidField
  match field fields "state" with
  | .str "planned" =>
    if !hasOwn fields "occurrence" then throw .missingOccurrence
    match createMachineShutdownOccurrence (field fields "occurrence") with
    | .ok occurrence => return .planned occurrence
    | .error _ => throw .invalidOccurrence
  | .str "not_planned" =>
    if hasOwn fields "occurrence" then throw .unexpectedOccurrence
    return .notPlanned
  | _ => throw .invalidState

/-- The record of an occurrence with these instants, in whatever order they are. -/
def occurrenceRecord (scheduledFor wakeScheduledFor : Timestamp) : JsValue :=
  .obj [("operation", .str "shutdown"), ("scheduledFor", .str scheduledFor.text),
    ("wakeScheduledFor", .str wakeScheduledFor.text)]

/-- Only a machine that is to run, with both transitions planned, is shut down. -/
def planMachineShutdownOccurrence (input : JsValue) :
    Except MachineShutdownOccurrencePlanValidationErrorCode MachineShutdownOccurrencePlan :=
  match createMachinePowerPlan input with
  | .error _ => .error .invalidPowerPlan
  | .ok plan =>
    match plan.expectation, plan.nextShutdown, plan.nextWake with
    | .operating, .planned shutdown, .planned wake =>
      createMachineShutdownOccurrencePlan (.obj [("state", .str "planned"),
        ("occurrence", occurrenceRecord shutdown wake)])
    | _, _, _ => createMachineShutdownOccurrencePlan (.obj [("state", .str "not_planned")])

/-- The occurrence of a plan that is operating. -/
theorem planMachineShutdownOccurrence_operating {plan : MachinePowerPlan}
    {occurrence : MachineShutdownOccurrence} (hexpectation : plan.expectation = .operating)
    (hshutdown : plan.nextShutdown = .planned occurrence.scheduledFor)
    (hwake : plan.nextWake = .planned occurrence.wakeScheduledFor) :
    planMachineShutdownOccurrence plan.toJs = .ok (.planned occurrence) := by
  have hoccurrence : createMachineShutdownOccurrence
      (occurrenceRecord occurrence.scheduledFor occurrence.wakeScheduledFor) = .ok occurrence :=
    createMachineShutdownOccurrence_toJs occurrence
  have hfield : field [("state", JsValue.str "planned"),
      ("occurrence", occurrenceRecord occurrence.scheduledFor occurrence.wakeScheduledFor)]
      "occurrence" =
      occurrenceRecord occurrence.scheduledFor occurrence.wakeScheduledFor := rfl
  have hfields : hasFieldOutside ["state", "occurrence"] [("state", JsValue.str "planned"),
      ("occurrence", occurrenceRecord occurrence.scheduledFor occurrence.wakeScheduledFor)] =
      false := rfl
  rw [planMachineShutdownOccurrence, createMachinePowerPlan_toJs]
  simp only [hexpectation, hshutdown, hwake, createMachineShutdownOccurrencePlan,
    JsValue.asRecord, hfields, hfield, hoccurrence]
  rfl

/-! ## Confirming an occurrence -/

/-- Does the policy still have the occurrence? -/
inductive MachineShutdownConfirmation where
  | confirmed
  | notConfirmed
  deriving DecidableEq, Repr

/-- What the reader of the policy can throw. -/
inductive ScheduledPolicyConfirmationError where
  | policyEvaluationFailed
  /-- the minute before the occurrence is beyond the range of dates -/
  | invalidDate
  deriving DecidableEq, Repr

/-- `ScheduledPolicyMachineShutdownConfirmationReader.read`. -/
def readConfirmation (zone : Zone) (policy : MachineOperatingPolicy) (occurrence : JsValue) :
    Except ScheduledPolicyConfirmationError MachineShutdownConfirmation :=
  match policy with
  | .scheduled _ =>
    match createMachineShutdownOccurrence occurrence with
    | .error _ => .ok .notConfirmed
    | .ok canonicalOccurrence =>
      match Timestamp.ofMs? (canonicalOccurrence.scheduledFor.ms - 60000) with
      | none => .error .invalidDate
      | some completedThrough =>
        match createMachineShutdownOccurrencesForInterval zone policy completedThrough
            canonicalOccurrence.scheduledFor with
        | .error _ => .error .policyEvaluationFailed
        | .ok generated =>
          if generated = [canonicalOccurrence] then .ok .confirmed else .ok .notConfirmed
  | _ => .ok .notConfirmed

/-! ## The search for the next transitions -/

section Search

variable {operatingAt : Int → Bool} {previous : Bool} {transitions : List Timestamp}

/-- Candidates with the expectation of the one before are passed over. -/
theorem findNextTransitions_skip {skipped candidates : List Int}
    (hsame : ∀ candidate ∈ skipped, operatingAt candidate = previous)
    (hrange : ∀ candidate ∈ skipped, (Timestamp.ofMs? candidate).isSome) :
    findNextTransitions operatingAt previous transitions (skipped ++ candidates) =
      findNextTransitions operatingAt previous transitions candidates := by
  induction skipped with
  | nil => rfl
  | cons candidate skipped ih =>
      obtain ⟨instant, hinstant⟩ :=
        Option.isSome_iff_exists.mp (hrange candidate List.mem_cons_self)
      rw [List.cons_append, findNextTransitions, hinstant]
      simp only [hsame candidate List.mem_cons_self, ne_eq, not_true_eq_false, if_false]
      exact ih (fun c hc => hsame c (List.mem_cons_of_mem _ hc))
        (fun c hc => hrange c (List.mem_cons_of_mem _ hc))

/-- A candidate with the other expectation is a transition. -/
theorem findNextTransitions_change {instant : Timestamp} {candidates : List Int}
    (hchange : operatingAt instant.ms ≠ previous) :
    findNextTransitions operatingAt previous transitions (instant.ms :: candidates) =
      if (transitions ++ [instant]).length = 2 then .ok (transitions ++ [instant])
      else findNextTransitions operatingAt (operatingAt instant.ms) (transitions ++ [instant])
        candidates := by
  rw [findNextTransitions, Timestamp.ofMs?_ms]
  exact if_pos hchange

end Search

end AtlasManager.Power
