import AtlasManager.Power.ShutdownExecution

/-!
# AtlasManager.Power.ControllerAnswers

The answers of the controllers of a preparation from which the result of a step
can be made.  The constructor of step results throws at the others, outside the
block that catches what the controllers throw.

* `AcceptsServices`, `AcceptsState` -- the results that are accepted;
* `servicesStep_isSome_iff`, `stateStep_isSome_iff` -- these and no others make
  the result of a step.
-/

namespace AtlasManager.Power

open AtlasManager.Lib AtlasManager.Service

/-- What a step comes to, by how its controller answered. -/
def effectFrom (effect : JsValue → Option StepEffect) :
    Except MachineShutdownOccurrenceExecutionFailure JsValue → StepEffect
  | .ok result => (effect result).getD dependencyFailed
  | .error _ => dependencyFailed

/-- The result of a step that is made of its effect. -/
def stepOf (kind : MachineShutdownPreparationStep) (processedAt : Timestamp)
    (effect : StepEffect) : Option MachineShutdownPreparationStepResult :=
  createMachineShutdownPreparationStepResult kind processedAt processedAt effect.outcome
    (some (resultDetail kind effect))

/-! ## Stopping services -/

/-- Results of stopping services that are accepted: well-formed steps about
different services that were asked for, at least one and at most 64, about all of
them if the result is successful; where a step failed, the last one did, and the
first one that did says why in a text. -/
structure AcceptsServices (serviceIds : List String) (items : List JsValue) (successful : JsValue)
    (steps : List MachineShutdownServicePreparationStep) : Prop where
  wellFormed : items.mapM createServicePreparationStep = some steps
  nonempty : 1 ≤ steps.length
  bounded : steps.length ≤ 64
  nodup : (steps.map (·.serviceId)).Nodup
  asked : ∀ step ∈ steps, step.serviceId ∈ serviceIds
  all : successful.isTruthy = true → steps.length = serviceIds.length
  failedLast : (steps.any fun step => isFailed step.outcome) = true →
    (steps.getLast?.any fun step => isFailed step.outcome) = true
  failureCode : ∀ failed, (steps.find? fun step => isFailed step.outcome) = some failed →
    ∃ code ∈ serviceFailureCodes, failed.failureCode = some (.str code)

section Services

variable {item : JsValue} {items : List JsValue} {step : MachineShutdownServicePreparationStep}
  {steps : List MachineShutdownServicePreparationStep}

theorem createServicePreparationStep_some (h : createServicePreparationStep item = some step) :
    ∃ fields, item = .obj fields ∧ field fields "serviceId" = .str step.serviceId ∧
      field fields "outcome" = step.outcome ∧
      (isFailed step.outcome = true → step.failureCode = some (field fields "failureCode")) := by
  cases item with
  | obj fields =>
      simp only [createServicePreparationStep, JsValue.asRecord, Option.bind_eq_bind,
        Option.bind_some, Option.bind_eq_some_iff] at h
      obtain ⟨serviceId, hid, -, -, -, -, h⟩ := h
      have hfield : field fields "serviceId" = .str serviceId := by
        cases hvalue : field fields "serviceId" <;> simp only [hvalue, serviceIdOf] at hid
        case str id =>
          split at hid
          · rw [Option.some.inj hid]
          · cases hid
        all_goals cases hid
      split at h
      · simp only [Option.bind_eq_some_iff] at h
        obtain ⟨-, -, h⟩ := h
        obtain rfl := Option.some.inj h
        exact ⟨fields, rfl, hfield, rfl, fun _ => rfl⟩
      · next hfailed =>
          simp only [Option.bind_eq_some_iff] at h
          obtain ⟨-, -, h⟩ := h
          obtain rfl := Option.some.inj h
          exact ⟨fields, rfl, hfield, rfl, fun hnot => absurd hnot hfailed⟩
  | _ => cases h

theorem serviceIds_of_steps (h : items.mapM createServicePreparationStep = some steps) :
    (items.mapM fun step => do
      let .str id ← step.member? "serviceId" | none
      return id) = some (steps.map (·.serviceId)) := by
  induction items generalizing steps with
  | nil =>
      obtain rfl := Option.some.inj h
      rfl
  | cons item items ih =>
      obtain ⟨step, rest, hstep, hrest, rfl⟩ := mapM_cons_some h
      obtain ⟨fields, rfl, hid, -⟩ := createServicePreparationStep_some hstep
      rw [List.mapM_cons, ih hrest, JsValue.member?, hid]
      rfl

/-- The first item that failed is the first step that failed. -/
theorem find_failed (h : items.mapM createServicePreparationStep = some steps) :
    (items.find? (fun item => (item.member? "outcome").any isFailed) = none ∧
      (steps.find? fun step => isFailed step.outcome) = none) ∨
    ∃ fields step,
      items.find? (fun item => (item.member? "outcome").any isFailed) = some (.obj fields) ∧
        (steps.find? fun step => isFailed step.outcome) = some step ∧
        step.failureCode = some (field fields "failureCode") := by
  induction items generalizing steps with
  | nil =>
      obtain rfl := Option.some.inj h
      exact .inl ⟨rfl, rfl⟩
  | cons item items ih =>
      obtain ⟨step, rest, hstep, hrest, rfl⟩ := mapM_cons_some h
      obtain ⟨fields, rfl, -, houtcome, hcode⟩ := createServicePreparationStep_some hstep
      simp only [List.find?_cons, JsValue.member?, houtcome, Option.any_some]
      cases hfailed : isFailed step.outcome with
      | false => exact ih hrest
      | true => exact .inr ⟨_, _, rfl, rfl, hcode hfailed⟩

/-- What the items of a result come to. -/
def effectOfItems (items : List JsValue) : StepEffect :=
  match items.find? fun step => ((step.member? "outcome").any isFailed) with
  | some failed => {
      outcome := .failed
      detail := [("failureCode", (failed.member? "failureCode").getD .undefined),
        ("serviceSteps", .arr items)] }
  | none => {
      outcome := .completed
      detail := [("serviceSteps", .arr items), ("stoppedCount", countOutcome items "stopped"),
        ("alreadyStoppedCount", countOutcome items "already_stopped")] }

theorem serviceEffect_eq_some_iff {serviceIds : List String} {result : JsValue}
    {effect : StepEffect} :
    serviceEffect serviceIds result = some effect ↔
      ∃ items ids successful, result.member? "steps" = some (.arr items) ∧
        items.length ≤ serviceIds.length ∧
        (items.mapM fun step => do
          let .str id ← step.member? "serviceId" | none
          return id) = some ids ∧
        (ids.all fun id => id ∈ serviceIds) = true ∧ (distinct ids).length = items.length ∧
        result.member? "successful" = some successful ∧
        (!successful.isTruthy || items.length = serviceIds.length) = true ∧
        effect = effectOfItems items := by
  have hend : ∀ items, (match items.find? fun step => ((step.member? "outcome").any isFailed) with
      | some failed => some (StepEffect.mk .failed
          [("failureCode", (JsValue.member? "failureCode" failed).getD .undefined),
            ("serviceSteps", .arr items)])
      | none => some (StepEffect.mk .completed
          [("serviceSteps", .arr items), ("stoppedCount", countOutcome items "stopped"),
            ("alreadyStoppedCount", countOutcome items "already_stopped")])) =
      some (effectOfItems items) := by
    intro items
    unfold effectOfItems
    split <;> rfl
  unfold serviceEffect
  simp only [Option.bind_eq_bind, Option.bind_eq_some_iff]
  constructor
  · rintro ⟨value, hsteps, h⟩
    split at h
    · next items =>
        simp only [Option.bind_eq_some_iff, Option.guard_eq_some', exists_const] at h
        obtain ⟨hlength, ids, hids, hall, hdistinct, successful, hsuccessful, hnumber, h⟩ := h
        exact ⟨items, ids, successful, hsteps, hlength, hids, hall, hdistinct, hsuccessful, hnumber,
          Option.some.inj (h.symm.trans (hend items))⟩
    · cases h
  · rintro ⟨items, ids, successful, hsteps, hlength, hids, hall, hdistinct, hsuccessful, hnumber, rfl⟩
    refine ⟨_, hsteps, ?_⟩
    simp only [Option.bind_eq_some_iff, Option.guard_eq_some', exists_const]
    exact ⟨hlength, ids, hids, hall, hdistinct, successful, hsuccessful, hnumber, hend items⟩

theorem createMachineShutdownServicePreparationResult_isSome_iff {requestedAt : Timestamp}
    {successful : Bool} :
    (createMachineShutdownServicePreparationResult requestedAt (.arr items) successful).isSome =
        true ↔
      ∃ steps, items.mapM createServicePreparationStep = some steps ∧ 1 ≤ steps.length ∧
        steps.length ≤ 64 ∧ (steps.map (·.serviceId)).Nodup ∧
        successful ≠ (steps.any fun step => isFailed step.outcome) ∧
        ((steps.any fun step => isFailed step.outcome) = true →
          (steps.getLast?.any fun step => isFailed step.outcome) = true) := by
  simp only [createMachineShutdownServicePreparationResult, Option.isSome_iff_exists,
    Option.bind_eq_bind, Option.bind_eq_some_iff, Option.guard_eq_some', exists_const,
    Option.pure_def, Option.some.injEq]
  constructor
  · rintro ⟨result, steps, hsteps, ⟨hone, hmany, hnodup⟩, hagrees, hlast, -⟩
    refine ⟨steps, hsteps, hone, hmany, hnodup, hagrees, fun hfailed => ?_⟩
    simpa [hfailed] using hlast
  · rintro ⟨steps, hsteps, hone, hmany, hnodup, hagrees, hlast⟩
    refine ⟨_, steps, hsteps, ⟨hone, hmany, hnodup⟩, hagrees, ?_, rfl⟩
    cases hfailed : steps.any fun step => isFailed step.outcome with
    | false => rfl
    | true => rw [hlast hfailed]; rfl

theorem stepResult_servicesDone (processedAt : Timestamp) :
    (createMachineShutdownPreparationStepResult .stopRegisteredServices processedAt processedAt
        .completed (some (.obj [("serviceSteps", .arr items)]))).isSome =
      (createMachineShutdownServicePreparationResult detailRequestedAt (.arr items) true).isSome := by
  have hfield : field [("serviceSteps", .arr items)] "serviceSteps" = .arr items := rfl
  simp only [createMachineShutdownPreparationStepResult, validateDetail, JsValue.asRecord,
    Option.bind_eq_bind, Option.bind_some, hfield, reduceCtorEq, if_false, ne_eq,
    not_false_eq_true, decide_true]
  cases createMachineShutdownServicePreparationResult detailRequestedAt (.arr items) true <;> rfl

theorem stepResult_servicesFailed {processedAt : Timestamp} {code : JsValue} :
    (createMachineShutdownPreparationStepResult .stopRegisteredServices processedAt processedAt
        .failed (some (.obj [("serviceSteps", .arr items), ("failureCode", code)]))).isSome = true ↔
      (createMachineShutdownServicePreparationResult detailRequestedAt (.arr items) false).isSome =
        true ∧ ∃ text ∈ serviceFailureCodes, code = .str text := by
  have hfield : field [("serviceSteps", .arr items), ("failureCode", code)] "serviceSteps" =
      .arr items := rfl
  have hcode : field [("serviceSteps", .arr items), ("failureCode", code)] "failureCode" = code := rfl
  simp only [createMachineShutdownPreparationStepResult, validateDetail, JsValue.asRecord,
    Option.bind_eq_bind, Option.bind_some, hfield, hcode, if_true, ne_eq, not_true_eq_false,
    decide_false]
  cases createMachineShutdownServicePreparationResult detailRequestedAt (.arr items) false with
  | none => simp
  | some result =>
      cases code with
      | str text =>
          by_cases htext : text ∈ serviceFailureCodes
          · simp [htext]
            rfl
          · simp [htext]
      | _ => simp

/-- The items of which the result of the step is made. -/
theorem stepOf_effectOfItems_isSome_iff {processedAt : Timestamp} :
    (stepOf .stopRegisteredServices processedAt (effectOfItems items)).isSome = true ↔
      ∃ steps, items.mapM createServicePreparationStep = some steps ∧ 1 ≤ steps.length ∧
        steps.length ≤ 64 ∧ (steps.map (·.serviceId)).Nodup ∧
        ((steps.any fun step => isFailed step.outcome) = true →
          (steps.getLast?.any fun step => isFailed step.outcome) = true) ∧
        ∀ failed, (steps.find? fun step => isFailed step.outcome) = some failed →
          ∃ code ∈ serviceFailureCodes, failed.failureCode = some (.str code) := by
  have hany : ∀ steps : List MachineShutdownServicePreparationStep,
      (steps.any fun step => isFailed step.outcome) =
        (steps.find? fun step => isFailed step.outcome).isSome := by
    intro steps
    rw [Bool.eq_iff_iff, List.any_eq_true, List.find?_isSome]
  cases hfailed : items.find? fun item => ((item.member? "outcome").any isFailed) with
  | none =>
      have hstep : (stepOf .stopRegisteredServices processedAt (effectOfItems items)).isSome =
          (createMachineShutdownServicePreparationResult detailRequestedAt (.arr items)
            true).isSome := by
        rw [← stepResult_servicesDone processedAt, stepOf, effectOfItems, hfailed]
        rfl
      rw [hstep, createMachineShutdownServicePreparationResult_isSome_iff]
      refine exists_congr fun steps => and_congr_right fun hsteps => ?_
      have hnone : (steps.find? fun step => isFailed step.outcome) = none := by
        rcases find_failed hsteps with h | ⟨fields, step, h, -⟩
        · exact h.2
        · rw [hfailed] at h
          cases h
      simp [hany, hnone]
  | some failed =>
      have hstep : stepOf .stopRegisteredServices processedAt (effectOfItems items) =
          createMachineShutdownPreparationStepResult .stopRegisteredServices processedAt processedAt
            .failed (some (.obj [("serviceSteps", .arr items),
              ("failureCode", (failed.member? "failureCode").getD .undefined)])) := by
        rw [stepOf, effectOfItems, hfailed]
        rfl
      rw [hstep, stepResult_servicesFailed, createMachineShutdownServicePreparationResult_isSome_iff,
        ← exists_and_right]
      refine exists_congr fun steps => ?_
      rw [and_assoc]
      refine and_congr_right fun hsteps => ?_
      rcases find_failed hsteps with h | ⟨fields, step, hitem, hfind, hcode⟩
      · rw [hfailed] at h
        cases h.1
      · obtain rfl : failed = .obj fields := Option.some.inj (hfailed.symm.trans hitem)
        have hvalue : ((JsValue.obj fields).member? "failureCode").getD .undefined =
            field fields "failureCode" := rfl
        simp only [hany, hfind, hvalue, Option.isSome_some, Option.some.injEq, forall_eq', hcode,
          ne_eq, Bool.false_eq_true, not_false_eq_true, true_and, and_assoc]

/-- **Stopping services.**  The answers that make the result of the step. -/
theorem servicesStep_isSome_iff {serviceIds : List String} {processedAt : Timestamp}
    {answer : Except MachineShutdownOccurrenceExecutionFailure JsValue} :
    (stepOf .stopRegisteredServices processedAt
        (effectFrom (serviceEffect serviceIds) answer)).isSome = true ↔
      ∃ result items successful steps, answer = .ok result ∧
        result.member? "steps" = some (.arr items) ∧
        result.member? "successful" = some successful ∧
        AcceptsServices serviceIds items successful steps := by
  have hfailed : stepOf .stopRegisteredServices processedAt dependencyFailed = none := rfl
  constructor
  · intro h
    cases answer with
    | error e => rw [effectFrom, hfailed] at h; cases h
    | ok result =>
        rw [effectFrom] at h
        cases heffect : serviceEffect serviceIds result with
        | none => rw [heffect, Option.getD_none, hfailed] at h; cases h
        | some effect =>
            obtain ⟨items, ids, successful, hitems, hlength, hids, hall, hdistinct, hsuccessful,
              hnumber, rfl⟩ := serviceEffect_eq_some_iff.mp heffect
            rw [heffect, Option.getD_some, stepOf_effectOfItems_isSome_iff] at h
            obtain ⟨steps, hsteps, hone, hmany, hnodup, hlast, hcode⟩ := h
            obtain rfl := Option.some.inj (hids.symm.trans (serviceIds_of_steps hsteps))
            refine ⟨result, items, successful, steps, rfl, hitems, hsuccessful, hsteps, hone, hmany,
              hnodup, fun step hstep => ?_, fun htruthy => ?_, hlast, hcode⟩
            · simpa using List.all_eq_true.mp hall _ (List.mem_map_of_mem hstep)
            · rw [← length_of_mapM hsteps]
              simpa [htruthy] using hnumber
  · rintro ⟨result, items, successful, steps, rfl, hitems, hsuccessful, h⟩
    have hlength := length_of_mapM h.wellFormed
    have hids := serviceIds_of_steps h.wellFormed
    have hsubset : steps.map (·.serviceId) ⊆ serviceIds := by
      intro id hid
      obtain ⟨step, hstep, rfl⟩ := List.mem_map.mp hid
      exact h.asked step hstep
    have heffect : serviceEffect serviceIds result = some (effectOfItems items) := by
      rw [serviceEffect_eq_some_iff]
      refine ⟨items, _, successful, hitems, ?_, hids, ?_, ?_, hsuccessful, ?_, rfl⟩
      · rw [hlength, ← List.length_map (f := (·.serviceId))]
        exact (h.nodup.subperm hsubset).length_le
      · exact List.all_eq_true.mpr fun id hid => decide_eq_true (hsubset hid)
      · rw [length_distinct h.nodup, List.length_map, hlength]
      · cases htruthy : successful.isTruthy with
        | false => rfl
        | true => simp [hlength, h.all htruthy]
    rw [effectFrom, heffect, Option.getD_some, stepOf_effectOfItems_isSome_iff]
    exact ⟨steps, h.wellFormed, h.nonempty, h.bounded, h.nodup, h.failedLast, h.failureCode⟩

end Services

/-! ## The other controllers -/

/-- Do the fields of a blocked result make the detail of the step? -/
def isBlockAccepted (kind : MachineShutdownPreparationStep) (result : JsValue) : Bool :=
  match kind with
  | .drainActiveTasks =>
    (taskCountOf ((result.member? "remainingTaskCount").getD .undefined)).isSome
  | _ =>
    match (result.member? "reason").getD .undefined with
    | .str reason => isFailureCodeAllowed kind .blocked reason
    | _ => false

/-- Results of the controllers of a state that are accepted.  Where the outcome
cannot be read, the step counts as failed. -/
def AcceptsState (kind : MachineShutdownPreparationStep) (result : JsValue) : Prop :=
  match result.member? "outcome" with
  | none => True
  | some (.str "blocked") => isBlockAccepted kind result = true
  | some outcome => isOutcomeAccepted kind outcome = true

def isState : MachineShutdownPreparationStep → Bool
  | .drainActiveTasks | .completeBackup | .synchronizeFilesystem => true
  | _ => false

def stateEffect : MachineShutdownPreparationStep → JsValue → Option StepEffect
  | .drainActiveTasks => drainEffect
  | .completeBackup => completeEffect
  | _ => synchronizeEffect

section State

variable {kind : MachineShutdownPreparationStep} {processedAt : Timestamp} {result : JsValue}

theorem isState_iff : isState kind = true ↔
    kind = .drainActiveTasks ∨ kind = .completeBackup ∨ kind = .synchronizeFilesystem := by
  cases kind <;> decide

theorem stepOf_dependencyFailed (hkind : isState kind = true) :
    (stepOf kind processedAt dependencyFailed).isSome = true := by
  rcases isState_iff.mp hkind with rfl | rfl | rfl <;> rfl

/-- A step that is done has the outcome as its detail. -/
theorem stepOf_done (hkind : isState kind = true) {outcome : MachineShutdownPreparationStepOutcome}
    (houtcome : outcome = .completed ∨ outcome = .skipped) (value : JsValue) :
    stepOf kind processedAt ⟨outcome, [("outcome", value)]⟩ =
      if isOutcomeAccepted kind value = true then
        some ⟨kind, processedAt, processedAt, outcome, some (.outcome value)⟩
      else none := by
  have hdetail : outcomeDetail kind [("outcome", value)] =
      if isOutcomeAccepted kind value = true then some (.outcome value) else none := by
    have hfield : field [("outcome", value)] "outcome" = value := rfl
    simp only [outcomeDetail, hfield]
    cases isOutcomeAccepted kind value <;> rfl
  have hvalid : validateDetail kind outcome (.obj [("outcome", value)]) =
      outcomeDetail kind [("outcome", value)] := by
    rcases isState_iff.mp hkind with rfl | rfl | rfl <;>
      simp only [validateDetail, JsValue.asRecord, Option.bind_eq_bind, Option.bind_some, houtcome,
        if_true]
  have hresult : resultDetail kind ⟨outcome, [("outcome", value)]⟩ = .obj [("outcome", value)] := by
    rcases isState_iff.mp hkind with rfl | rfl | rfl <;> rfl
  have hrecord : kind.isRecord = false := by
    rcases isState_iff.mp hkind with rfl | rfl | rfl <;> rfl
  rw [stepOf, hresult, createMachineShutdownPreparationStepResult, hvalid, hdetail]
  split
  · rw [hrecord]
    rfl
  · rfl

theorem stepOf_drainBlocked (count : JsValue) :
    (stepOf .drainActiveTasks processedAt ⟨.blocked, [("failureCode", .str "active_tasks_present"),
        ("remainingTaskCount", count)]⟩).isSome = (taskCountOf count).isSome := by
  have hfield : field [("failureCode", .str "active_tasks_present"), ("remainingTaskCount", count)]
      "remainingTaskCount" = count := rfl
  have hcode : field [("failureCode", .str "active_tasks_present"), ("remainingTaskCount", count)]
      "failureCode" = .str "active_tasks_present" := rfl
  simp only [stepOf, resultDetail, reduceCtorEq, if_false,
    createMachineShutdownPreparationStepResult, validateDetail, JsValue.asRecord, or_self,
    failureDetail, hfield, hcode, Option.bind_eq_bind, Option.bind_some]
  cases taskCountOf count <;> rfl

theorem stepOf_stateBlocked (hkind : isState kind = true) (hdrain : kind ≠ .drainActiveTasks)
    (reason : JsValue) :
    (stepOf kind processedAt ⟨.blocked, [("failureCode", reason)]⟩).isSome =
      match reason with
      | .str reason => isFailureCodeAllowed kind .blocked reason
      | _ => false := by
  have hcode : field [("failureCode", reason)] "failureCode" = reason := rfl
  have hvalid : validateDetail kind .blocked (.obj [("failureCode", reason)]) =
      failureDetail kind .blocked [("failureCode", reason)] := by
    rcases isState_iff.mp hkind with rfl | rfl | rfl <;> rfl
  have hresult : resultDetail kind ⟨.blocked, [("failureCode", reason)]⟩ =
      .obj [("failureCode", reason)] := by
    rcases isState_iff.mp hkind with rfl | rfl | rfl <;> rfl
  have hrecord : kind.isRecord = false := by
    rcases isState_iff.mp hkind with rfl | rfl | rfl <;> rfl
  rw [stepOf, hresult, createMachineShutdownPreparationStepResult, hvalid]
  simp only [failureDetail, hcode, Option.bind_eq_bind]
  cases reason with
  | str reason =>
      cases hallowed : isFailureCodeAllowed kind .blocked reason <;>
        simp [hdrain, hrecord, hasOwn, hasFieldOutside, hallowed]
  | _ => rfl

/-- What reading a result of a state comes to: nothing, a blocked step, or a
step that is done, with the outcome that was read. -/
theorem stateEffect_cases (processedAt : Timestamp) (hkind : isState kind = true)
    (result : JsValue) :
    result.member? "outcome" = none ∧ stateEffect kind result = none ∨
    result.member? "outcome" = some (.str "blocked") ∧ (∃ effect,
      stateEffect kind result = some effect ∧ effect.outcome = .blocked ∧
      (stepOf kind processedAt effect).isSome = isBlockAccepted kind result) ∨
    ∃ value outcome, result.member? "outcome" = some value ∧
      (AcceptsState kind result ↔ isOutcomeAccepted kind value = true) ∧
      (outcome = .completed ∨ outcome = .skipped) ∧
      stateEffect kind result = some ⟨outcome, [("outcome", value)]⟩ := by
  have heffect : ∃ done blockedDetail, stateEffect kind = controllerEffect done blockedDetail ∧
      (stepOf kind processedAt ⟨.blocked, blockedDetail result⟩).isSome =
        isBlockAccepted kind result := by
    rcases isState_iff.mp hkind with rfl | rfl | rfl
    · exact ⟨_, _, rfl, stepOf_drainBlocked _⟩
    · exact ⟨_, _, rfl, stepOf_stateBlocked rfl (by decide) _⟩
    · exact ⟨_, _, rfl, stepOf_stateBlocked rfl (by decide) _⟩
  obtain ⟨done, blockedDetail, heffect, hblocked⟩ := heffect
  rw [heffect]
  simp only [controllerEffect, AcceptsState]
  cases hvalue : result.member? "outcome" with
  | none => exact .inl ⟨rfl, rfl⟩
  | some value =>
      refine .inr ?_
      by_cases htext : value = .str "blocked"
      · subst htext
        exact .inl ⟨rfl, _, rfl, rfl, hblocked⟩
      · refine .inr ⟨value, ?_⟩
        cases value with
        | str text =>
            have hne : text ≠ "blocked" := fun h => htext (congrArg JsValue.str h)
            refine ⟨if text = done then .completed else .skipped, rfl, ?_, ?_, by simp⟩
            · split <;> simp_all
            · split <;> simp
        | _ => exact ⟨.skipped, rfl, Iff.rfl, .inr rfl, rfl⟩

/-- **The other controllers.**  The answers that make the result of the step. -/
theorem stateStep_isSome_iff (hkind : isState kind = true)
    {answer : Except MachineShutdownOccurrenceExecutionFailure JsValue} :
    (stepOf kind processedAt (effectFrom (stateEffect kind) answer)).isSome = true ↔
      ∀ result, answer = .ok result → AcceptsState kind result := by
  cases answer with
  | error e => simp [effectFrom, stepOf_dependencyFailed hkind]
  | ok result =>
      simp only [effectFrom, Except.ok.injEq, forall_eq']
      rcases stateEffect_cases processedAt hkind result with
        ⟨hmember, heffect⟩ | ⟨hmember, effect, heffect, -, hstep⟩ |
          ⟨value, outcome, -, haccepts, houtcome, heffect⟩
      · simp [heffect, AcceptsState, hmember, stepOf_dependencyFailed hkind]
      · simp [heffect, AcceptsState, hmember, hstep]
      · rw [haccepts, heffect, Option.getD_some, stepOf_done hkind houtcome]
        split <;> simp_all

end State

end AtlasManager.Power
