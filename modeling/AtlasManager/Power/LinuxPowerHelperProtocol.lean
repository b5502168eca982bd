import AtlasManager.Lib.Json
import AtlasManager.Power.ShutdownRecords

/-!
# AtlasManager.Power.LinuxPowerHelperProtocol

The manager's side of the power helper's protocol: the requests it sends and
the responses it accepts.

* `createLinuxPowerHelperRequest_json` -- checking a request again gives it back;
* `createLinuxPowerHelperResponse_json_iff` -- of the records of responses, those
  are accepted that fit what was asked;
* `parseLinuxPowerHelperResponse_print` -- the line of a record is read as it.
-/

namespace AtlasManager.Power

open AtlasManager.Lib

/-! ## Requests -/

inductive LinuxPowerHelperOperation where
  | readRtcInformation
  | readWakeAlarm
  | scheduleWakeAlarm
  | cancelWakeAlarm
  | requestShutdown
  deriving DecidableEq, Repr

namespace LinuxPowerHelperOperation

def text : LinuxPowerHelperOperation → String
  | readRtcInformation => "read_rtc_information"
  | readWakeAlarm => "read_wake_alarm"
  | scheduleWakeAlarm => "schedule_wake_alarm"
  | cancelWakeAlarm => "cancel_wake_alarm"
  | requestShutdown => "request_shutdown"

/-- `LINUX_POWER_HELPER_OPERATIONS`. -/
def all : List LinuxPowerHelperOperation :=
  [readRtcInformation, readWakeAlarm, scheduleWakeAlarm, cancelWakeAlarm, requestShutdown]

@[simp] theorem oneOf_text (operation : LinuxPowerHelperOperation) :
    oneOf all text (.str operation.text) = some operation := by
  cases operation <;> rfl

end LinuxPowerHelperOperation

inductive LinuxPowerHelperFailureCode where
  | operationUnsupported
  | operationRejected
  | operationFailed
  | stateUnavailable
  deriving DecidableEq, Repr

namespace LinuxPowerHelperFailureCode

def text : LinuxPowerHelperFailureCode → String
  | operationUnsupported => "operation_unsupported"
  | operationRejected => "operation_rejected"
  | operationFailed => "operation_failed"
  | stateUnavailable => "state_unavailable"

/-- `LINUX_POWER_HELPER_FAILURE_CODES`. -/
def all : List LinuxPowerHelperFailureCode :=
  [operationUnsupported, operationRejected, operationFailed, stateUnavailable]

@[simp] theorem oneOf_text (code : LinuxPowerHelperFailureCode) :
    oneOf all text (.str code.text) = some code := by
  cases code <;> rfl

end LinuxPowerHelperFailureCode

inductive LinuxPowerHelperProtocolErrorCode where
  | invalidRecord
  | invalidField
  | invalidVersion
  | unsupportedVersion
  | invalidOperation
  | invalidRequestedAt
  | invalidScheduledFor
  | invalidScheduleRange
  | invalidOutcome
  | invalidCode
  | operationMismatch
  | invalidResult
  | invalidResultField
  | invalidResultState
  | invalidResultTransition
  | invalidResponse
  | invalidUtf8
  | multipleResponseLines
  | emptyResponse
  | trailingResponseData
  | requestTooLarge
  deriving DecidableEq, Repr

/-- A request names an instant exactly when it schedules, and then a later one. -/
structure LinuxPowerHelperRequest where
  operation : LinuxPowerHelperOperation
  requestedAt : Timestamp
  scheduledFor : Option Timestamp
  schedules : scheduledFor.isSome = true ↔ operation = .scheduleWakeAlarm
  later : ∀ scheduled ∈ scheduledFor, requestedAt.text < scheduled.text
  deriving DecidableEq

def hasExactFields (fields : List (String × JsValue)) (expected : List String) : Bool :=
  fields.length = expected.length && fields.all fun f => f.1 ∈ expected

def createLinuxPowerHelperRequest (input : JsValue) :
    Except LinuxPowerHelperProtocolErrorCode LinuxPowerHelperRequest := do
  let some fields := input.asRecord | throw .invalidRecord
  let some version := (field fields "version").integer? | throw .invalidVersion
  if version ≠ 1 then throw .unsupportedVersion
  let some operation := oneOf LinuxPowerHelperOperation.all LinuxPowerHelperOperation.text
    (field fields "operation") | throw .invalidOperation
  let some requestedAt := (field fields "requestedAt").timestamp? | throw .invalidRequestedAt
  if hop : operation = .scheduleWakeAlarm then
    if !hasExactFields fields ["version", "operation", "requestedAt", "scheduledFor"] then
      throw .invalidField
    let some scheduledFor := (field fields "scheduledFor").timestamp?
      | throw .invalidScheduledFor
    if hlater : requestedAt.text < scheduledFor.text then
      return ⟨operation, requestedAt, some scheduledFor, by simp [hop], by simpa using hlater⟩
    else throw .invalidScheduleRange
  else
    if !hasExactFields fields ["version", "operation", "requestedAt"] then throw .invalidField
    return ⟨operation, requestedAt, none, by simp [hop], by simp⟩

/-- The version of the protocol. -/
def protocolVersion : Json := .num ['1']

@[simp] theorem toJsValue_protocolVersion : protocolVersion.toJsValue = .num 1 := by
  have hdigit : Json.isDigit '1' = true := by decide
  have hread : readDigits 0 ['1'] = some 1 := by decide
  simp [protocolVersion, Json.toJsValue, Json.numberValue, hdigit, hread, readDigits]

namespace LinuxPowerHelperRequest

def fields (request : LinuxPowerHelperRequest) : List (String × Json) :=
  [("version", protocolVersion), ("operation", .str request.operation.text),
    ("requestedAt", .str request.requestedAt.text)] ++
  request.scheduledFor.toList.map fun scheduled => ("scheduledFor", .str scheduled.text)

def json (request : LinuxPowerHelperRequest) : Json := .obj request.fields

end LinuxPowerHelperRequest

/-- Checking a request again gives it back. -/
theorem createLinuxPowerHelperRequest_json (request : LinuxPowerHelperRequest) :
    createLinuxPowerHelperRequest request.json.toJsValue = .ok request := by
  obtain ⟨operation, requestedAt, scheduledFor, hschedules, hlater⟩ := request
  cases scheduledFor with
  | none =>
      have hop : operation ≠ .scheduleWakeAlarm := by
        intro heq
        simp [heq] at hschedules
      simp [createLinuxPowerHelperRequest, LinuxPowerHelperRequest.json,
        LinuxPowerHelperRequest.fields, Json.toJsValue, Json.toJsFields, Json.assign, hasOwn,
        field, List.lookup, JsValue.asRecord, JsValue.integer?, hasExactFields, hop]
      rfl
  | some scheduled =>
      have hop : operation = .scheduleWakeAlarm := by simpa using hschedules
      have hlt : requestedAt.text < scheduled.text := by simpa using hlater
      subst hop
      simp [createLinuxPowerHelperRequest, LinuxPowerHelperRequest.json,
        LinuxPowerHelperRequest.fields, Json.toJsValue, Json.toJsFields, Json.assign, hasOwn,
        field, List.lookup, JsValue.asRecord, JsValue.integer?, hasExactFields, hlt]
      rfl

def serializeLinuxPowerHelperRequest (input : LinuxPowerHelperRequest) :
    Except LinuxPowerHelperProtocolErrorCode String := do
  let request ← createLinuxPowerHelperRequest input.json.toJsValue
  let serialized := String.ofList (Json.stringify request.json ++ ['\n'])
  if serialized.toByteArray.size > 4096 then throw .requestTooLarge
  return serialized

/-! ## Responses -/

inductive LinuxPowerHelperFailureOutcome where
  | rejected
  | failed
  deriving DecidableEq, Repr

def LinuxPowerHelperFailureOutcome.text : LinuxPowerHelperFailureOutcome → String
  | rejected => "rejected"
  | failed => "failed"

/-- Of an alarm that was changed, the change is a valid one. -/
inductive LinuxPowerHelperResponse where
  | readRtcInformation (rtcTime : Timestamp) (wakeAlarm : WakeAlarmState)
  | readWakeAlarm (result : WakeAlarmState)
  | mutation (operation : WakeAlarmMutationOperation) (before after : WakeAlarmState)
      (outcome : WakeAlarmMutationOutcome)
      (valid : isValidTransition operation outcome before after = true)
  | requestShutdown
  | failure (operation : LinuxPowerHelperOperation) (outcome : LinuxPowerHelperFailureOutcome)
      (code : LinuxPowerHelperFailureCode)
  deriving DecidableEq

/-- What the caller expects an answer to: an operation, or a whole request. -/
inductive ExpectedOperationOrRequest where
  | operation (operation : LinuxPowerHelperOperation)
  | request (request : LinuxPowerHelperRequest)

namespace ExpectedOperationOrRequest

def expectedOperation : ExpectedOperationOrRequest → LinuxPowerHelperOperation
  | operation o => o
  | request r => r.operation

/-- The instant that a request to schedule names. -/
def scheduledFor : ExpectedOperationOrRequest → Option Timestamp
  | operation _ => none
  | request r => r.scheduledFor

end ExpectedOperationOrRequest

def WakeAlarmState.json : WakeAlarmState → Json
  | unsupported => .obj [("state", .str "unsupported")]
  | notScheduled => .obj [("state", .str "not_scheduled")]
  | scheduled scheduledFor =>
    .obj [("state", .str "scheduled"), ("scheduledFor", .str scheduledFor.text)]

/-- The operation on the alarm, for `schedule_wake_alarm` and `cancel_wake_alarm`. -/
def mutationOperation (operation : LinuxPowerHelperOperation) : WakeAlarmMutationOperation :=
  if operation = .scheduleWakeAlarm then .schedule else .cancel

def createMutationResponse (operation : LinuxPowerHelperOperation)
    (fields : List (String × JsValue)) (expected : Option ExpectedOperationOrRequest) :
    Except LinuxPowerHelperProtocolErrorCode LinuxPowerHelperResponse := do
  let before ← (createWakeAlarmState (field fields "before")).mapError fun _ => .invalidResultState
  let after ← (createWakeAlarmState (field fields "after")).mapError fun _ => .invalidResultState
  let some outcome := oneOf [.scheduled, .replaced, .unchanged, .cancelled, .notScheduled]
    WakeAlarmMutationOutcome.text (field fields "outcome") | throw .invalidResult
  -- the record that is checked is made of the values above
  let result ← (createWakeAlarmMutationResult (.obj
    [("operation", .str (mutationOperation operation).text),
      ("requestedAt", .str "1970-01-01T00:00:00.000Z"), ("outcome", .str outcome.text),
      ("before", before.json.toJsValue), ("after", after.json.toJsValue)])).mapError
    fun _ => .invalidResultTransition
  if operation = .scheduleWakeAlarm then
    if let some scheduledFor := expected.bind ExpectedOperationOrRequest.scheduledFor then
      if result.after ≠ .scheduled scheduledFor then throw .invalidResultTransition
  return .mutation result.operation result.before result.after result.outcome result.valid

def createSuccessResponse (operation : LinuxPowerHelperOperation) (result : JsValue)
    (expected : Option ExpectedOperationOrRequest) :
    Except LinuxPowerHelperProtocolErrorCode LinuxPowerHelperResponse := do
  match operation with
  | .readRtcInformation =>
    let some fields := result.asRecord | throw .invalidResultField
    if !hasExactFields fields ["rtcTime", "wakeAlarm"] then throw .invalidResultField
    let some rtcTime := (field fields "rtcTime").timestamp? | throw .invalidResult
    let wakeAlarm ← (createWakeAlarmState (field fields "wakeAlarm")).mapError
      fun _ => .invalidResultState
    return .readRtcInformation rtcTime wakeAlarm
  | .readWakeAlarm =>
    let wakeAlarm ← (createWakeAlarmState result).mapError fun _ => .invalidResultState
    return .readWakeAlarm wakeAlarm
  | .requestShutdown =>
    let some fields := result.asRecord | throw .invalidResult
    if !hasExactFields fields ["accepted"] ∨ field fields "accepted" ≠ .bool true then
      throw .invalidResult
    return .requestShutdown
  | .scheduleWakeAlarm | .cancelWakeAlarm =>
    let some fields := result.asRecord | throw .invalidResultField
    if !hasExactFields fields ["before", "after", "outcome"] then throw .invalidResultField
    createMutationResponse operation fields expected

def createFailureResponse (operation : LinuxPowerHelperOperation)
    (outcome : LinuxPowerHelperFailureOutcome) (fields : List (String × JsValue)) :
    Except LinuxPowerHelperProtocolErrorCode LinuxPowerHelperResponse := do
  if fields.length ≠ 4 ∨ !hasOwn fields "code" ∨ hasOwn fields "result" then throw .invalidField
  let some code := oneOf LinuxPowerHelperFailureCode.all LinuxPowerHelperFailureCode.text
    (field fields "code") | throw .invalidCode
  return .failure operation outcome code

def createLinuxPowerHelperResponse (input : JsValue)
    (expected : Option ExpectedOperationOrRequest) :
    Except LinuxPowerHelperProtocolErrorCode LinuxPowerHelperResponse := do
  let some fields := input.asRecord | throw .invalidRecord
  if hasFieldOutside ["version", "operation", "outcome", "result", "code"] fields then
    throw .invalidField
  if field fields "version" ≠ .num 1 then
    throw (if (field fields "version").integer?.isSome then .unsupportedVersion
      else .invalidVersion)
  let some operation := oneOf LinuxPowerHelperOperation.all LinuxPowerHelperOperation.text
    (field fields "operation") | throw .invalidOperation
  if expected.any fun e => e.expectedOperation ≠ operation then throw .operationMismatch
  match field fields "outcome" with
  | .str "success" =>
    if fields.length ≠ 4 ∨ !hasOwn fields "result" ∨ hasOwn fields "code" then throw .invalidField
    createSuccessResponse operation (field fields "result") expected
  | .str "rejected" => createFailureResponse operation .rejected fields
  | .str "failed" => createFailureResponse operation .failed fields
  | _ => throw .invalidOutcome

/-! ## Records of responses -/

namespace LinuxPowerHelperResponse

def operation : LinuxPowerHelperResponse → LinuxPowerHelperOperation
  | readRtcInformation _ _ => .readRtcInformation
  | readWakeAlarm _ => .readWakeAlarm
  | mutation .schedule _ _ _ _ => .scheduleWakeAlarm
  | mutation .cancel _ _ _ _ => .cancelWakeAlarm
  | requestShutdown => .requestShutdown
  | failure operation _ _ => operation

def outcome : LinuxPowerHelperResponse → String
  | failure _ outcome _ => outcome.text
  | _ => "success"

/-- The last field of a response: its result, or the code of a failure. -/
def answer : LinuxPowerHelperResponse → String × Json
  | readRtcInformation rtcTime wakeAlarm =>
    ("result", .obj [("rtcTime", .str rtcTime.text), ("wakeAlarm", wakeAlarm.json)])
  | readWakeAlarm result => ("result", result.json)
  | mutation _ before after outcome _ =>
    ("result", .obj [("before", before.json), ("after", after.json),
      ("outcome", .str outcome.text)])
  | requestShutdown => ("result", .obj [("accepted", .bool true)])
  | failure _ _ code => ("code", .str code.text)

def fields (response : LinuxPowerHelperResponse) : List (String × Json) :=
  [("version", protocolVersion), ("operation", .str response.operation.text),
    ("outcome", .str response.outcome), response.answer]

def json (response : LinuxPowerHelperResponse) : Json := .obj response.fields

/-- The state in which a changed alarm is left. -/
def after? : LinuxPowerHelperResponse → Option WakeAlarmState
  | mutation _ _ after _ _ => some after
  | _ => none

/-- Does a response fit what was asked?  Of an alarm that was to be scheduled, it
has to tell the instant that was asked for. -/
def Answers (response : LinuxPowerHelperResponse) (expected : ExpectedOperationOrRequest) : Prop :=
  expected.expectedOperation = response.operation ∧
    ∀ scheduled ∈ expected.scheduledFor, ∀ after ∈ response.after?, after = .scheduled scheduled

end LinuxPowerHelperResponse

@[simp] theorem createWakeAlarmState_json (state : WakeAlarmState) :
    createWakeAlarmState state.json.toJsValue = .ok state := by
  cases state with
  | unsupported => rfl
  | notScheduled => rfl
  | scheduled scheduledFor =>
      simp [createWakeAlarmState, WakeAlarmState.json, Json.toJsValue, Json.toJsFields, Json.assign,
        hasOwn, field, List.lookup, JsValue.asRecord, hasFieldOutside]
      rfl

@[simp] theorem oneOf_outcome (outcome : WakeAlarmMutationOutcome) :
    oneOf [.scheduled, .replaced, .unchanged, .cancelled, .notScheduled]
      WakeAlarmMutationOutcome.text (.str outcome.text) = some outcome := by
  cases outcome <;> rfl

@[simp] theorem oneOf_mutationOperation (operation : WakeAlarmMutationOperation) :
    oneOf [.schedule, .cancel] WakeAlarmMutationOperation.text (.str operation.text) =
      some operation := by
  cases operation <;> rfl

/-- No change starts or ends with an alarm that is not supported. -/
theorem supported_of_isValidTransition {operation : WakeAlarmMutationOperation}
    {outcome : WakeAlarmMutationOutcome} {before after : WakeAlarmState}
    (h : isValidTransition operation outcome before after = true) :
    ¬(before = .unsupported ∨ after = .unsupported) := by
  rintro (rfl | rfl)
  · cases operation <;> cases outcome <;> simp [isValidTransition] at h
  · cases operation <;> cases outcome <;> cases before <;> simp [isValidTransition] at h

private theorem exists_epoch :
    ∃ epoch, (JsValue.str "1970-01-01T00:00:00.000Z").timestamp? = some epoch :=
  Option.isSome_iff_exists.mp (by decide +kernel)

theorem createWakeAlarmMutationResult_valid {operation : WakeAlarmMutationOperation}
    {outcome : WakeAlarmMutationOutcome} {before after : WakeAlarmState}
    (hvalid : isValidTransition operation outcome before after = true) :
    ∃ epoch, createWakeAlarmMutationResult (.obj
      [("operation", .str operation.text), ("requestedAt", .str "1970-01-01T00:00:00.000Z"),
        ("outcome", .str outcome.text), ("before", before.json.toJsValue),
        ("after", after.json.toJsValue)]) =
      .ok ⟨operation, epoch, outcome, before, after, hvalid⟩ := by
  obtain ⟨epoch, hepoch⟩ := exists_epoch
  refine ⟨epoch, ?_⟩
  have hsupported := supported_of_isValidTransition hvalid
  simp [createWakeAlarmMutationResult, JsValue.asRecord, hasFieldOutside, field, List.lookup, hepoch,
    Except.mapError, bind, Except.bind]
  rw [if_neg hsupported, dif_pos hvalid]
  rfl

/-- A change that is valid is accepted unless another instant was asked for. -/
theorem createMutationResponse_eq {operation : LinuxPowerHelperOperation}
    {before after : WakeAlarmState} {outcome : WakeAlarmMutationOutcome}
    (hvalid : isValidTransition (mutationOperation operation) outcome before after = true)
    (expected : Option ExpectedOperationOrRequest) :
    createMutationResponse operation [("before", before.json.toJsValue),
        ("after", after.json.toJsValue), ("outcome", .str outcome.text)] expected =
      if operation = .scheduleWakeAlarm ∧
          ∃ scheduled ∈ expected.bind ExpectedOperationOrRequest.scheduledFor,
            after ≠ .scheduled scheduled then
        .error .invalidResultTransition
      else .ok (.mutation (mutationOperation operation) before after outcome hvalid) := by
  obtain ⟨epoch, hresult⟩ := createWakeAlarmMutationResult_valid hvalid
  unfold createMutationResponse
  simp [field, List.lookup, Except.mapError, bind, Except.bind]
  rw [hresult]
  dsimp only
  by_cases hop : operation = .scheduleWakeAlarm
  · cases hscheduled : expected.bind ExpectedOperationOrRequest.scheduledFor with
    | none =>
        simp [hop]
        rfl
    | some scheduled =>
        by_cases hafter : after = .scheduled scheduled
        · simp [hop, hafter]
          rfl
        · simp [hop, hafter]
          rfl
  · simp [hop]
    rfl

/-- Only requests to schedule name an instant. -/
theorem scheduledFor_eq_none {expected : ExpectedOperationOrRequest}
    (h : expected.expectedOperation ≠ .scheduleWakeAlarm) : expected.scheduledFor = none := by
  cases expected with
  | operation o => rfl
  | request r =>
      have hnone : r.scheduledFor.isSome ≠ true := fun hsome => h (r.schedules.mp hsome)
      rw [ExpectedOperationOrRequest.scheduledFor]
      simpa using hnone

/-- A response without a changed alarm fits whatever was asked of its operation. -/
theorem answers_of_after?_eq_none {response : LinuxPowerHelperResponse}
    {expected : ExpectedOperationOrRequest}
    (hop : expected.expectedOperation = response.operation) (h : response.after? = none) :
    response.Answers expected := by
  refine ⟨hop, fun scheduled _ after hafter => ?_⟩
  rw [h] at hafter
  cases hafter

theorem createMutationResponse_iff {response : LinuxPowerHelperResponse}
    {operation : LinuxPowerHelperOperation} {before after : WakeAlarmState}
    {outcome : WakeAlarmMutationOutcome}
    (hvalid : isValidTransition (mutationOperation operation) outcome before after = true)
    (hresponse : response = .mutation (mutationOperation operation) before after outcome hvalid)
    {expected : ExpectedOperationOrRequest} (hop : expected.expectedOperation = operation)
    (hoperation : response.operation = operation) :
    createMutationResponse operation [("before", before.json.toJsValue),
        ("after", after.json.toJsValue), ("outcome", .str outcome.text)] (some expected) =
      .ok response ↔ response.Answers expected := by
  rw [createMutationResponse_eq hvalid, Option.bind_some]
  have hanswers : response.Answers expected ↔
      ∀ scheduled ∈ expected.scheduledFor, after = .scheduled scheduled := by
    have hafter : response.after? = some after := by rw [hresponse, LinuxPowerHelperResponse.after?]
    simp [LinuxPowerHelperResponse.Answers, hop, hoperation, hafter]
  rw [hanswers]
  by_cases hschedule : operation = .scheduleWakeAlarm
  · by_cases hfits : ∀ scheduled ∈ expected.scheduledFor, after = .scheduled scheduled
    · rw [if_neg (by push Not; exact fun _ => hfits), hresponse]
      exact iff_of_true rfl hfits
    · rw [if_pos ⟨hschedule, by push Not at hfits; exact hfits⟩]
      exact iff_of_false (by simp) hfits
  · have hnone := scheduledFor_eq_none (hop ▸ hschedule)
    rw [if_neg (by simp [hschedule]), hresponse, hnone]
    simp

/-- The parts of a success that fits are accepted again. -/
theorem createSuccessResponse_iff {response : LinuxPowerHelperResponse}
    (h : response.outcome = "success") {expected : ExpectedOperationOrRequest}
    (hop : expected.expectedOperation = response.operation) :
    createSuccessResponse response.operation response.answer.2.toJsValue (some expected) =
      .ok response ↔ response.Answers expected := by
  cases response with
  | readRtcInformation rtcTime wakeAlarm =>
      refine iff_of_true ?_ (answers_of_after?_eq_none hop rfl)
      simp [createSuccessResponse, LinuxPowerHelperResponse.operation,
        LinuxPowerHelperResponse.answer, Json.toJsValue, Json.toJsFields, Json.assign, hasOwn,
        field, List.lookup, JsValue.asRecord, hasExactFields]
      rfl
  | readWakeAlarm result =>
      refine iff_of_true ?_ (answers_of_after?_eq_none hop rfl)
      simp [createSuccessResponse, LinuxPowerHelperResponse.operation,
        LinuxPowerHelperResponse.answer]
      rfl
  | mutation operation before after outcome valid =>
      cases operation with
      | schedule =>
          exact @createMutationResponse_iff _ .scheduleWakeAlarm _ _ _ valid rfl _ hop rfl
      | cancel =>
          exact @createMutationResponse_iff _ .cancelWakeAlarm _ _ _ valid rfl _ hop rfl
  | requestShutdown => exact iff_of_true rfl (answers_of_after?_eq_none hop rfl)
  | failure operation outcome code => cases outcome <;> exact absurd h (by simp [LinuxPowerHelperResponse.outcome, LinuxPowerHelperFailureOutcome.text])

theorem toJsValue_success {response : LinuxPowerHelperResponse}
    (h : response.outcome = "success") :
    response.json.toJsValue = .obj [("version", .num 1), ("operation", .str response.operation.text),
      ("outcome", .str "success"), ("result", response.answer.2.toJsValue)] := by
  have hname : response.answer = ("result", response.answer.2) := by
    cases response with
    | failure operation outcome code => cases outcome <;> exact absurd h (by simp [LinuxPowerHelperResponse.outcome, LinuxPowerHelperFailureOutcome.text])
    | _ => rfl
  rw [LinuxPowerHelperResponse.json, LinuxPowerHelperResponse.fields, h, hname]
  simp [Json.toJsValue, Json.toJsFields, Json.assign, hasOwn, List.lookup]

theorem toJsValue_failure (operation : LinuxPowerHelperOperation)
    (outcome : LinuxPowerHelperFailureOutcome) (code : LinuxPowerHelperFailureCode) :
    (LinuxPowerHelperResponse.failure operation outcome code).json.toJsValue =
      .obj [("version", .num 1), ("operation", .str operation.text), ("outcome", .str outcome.text),
        ("code", .str code.text)] := by
  simp [LinuxPowerHelperResponse.json, LinuxPowerHelperResponse.fields,
    LinuxPowerHelperResponse.operation, LinuxPowerHelperResponse.outcome,
    LinuxPowerHelperResponse.answer, Json.toJsValue, Json.toJsFields, Json.assign, hasOwn,
    List.lookup]

/-- A response to something else is not looked at any further. -/
theorem createLinuxPowerHelperResponse_mismatch {operation : LinuxPowerHelperOperation}
    {expected : ExpectedOperationOrRequest} (hop : expected.expectedOperation ≠ operation)
    {name : String} (hname : name = "result" ∨ name = "code") (outcome value : JsValue) :
    createLinuxPowerHelperResponse (.obj [("version", .num 1), ("operation", .str operation.text),
        ("outcome", outcome), (name, value)]) (some expected) = .error .operationMismatch := by
  have houtside : hasFieldOutside ["version", "operation", "outcome", "result", "code"]
      [("version", .num 1), ("operation", .str operation.text), ("outcome", outcome),
        (name, value)] = false := by
    rcases hname with rfl | rfl <;> simp [hasFieldOutside]
  simp [createLinuxPowerHelperResponse, JsValue.asRecord, houtside, field, List.lookup, hop]
  rfl

/-- **Acceptance**: of the records of responses those are accepted that fit what was
asked. -/
theorem createLinuxPowerHelperResponse_json_iff (response : LinuxPowerHelperResponse)
    (expected : ExpectedOperationOrRequest) :
    createLinuxPowerHelperResponse response.json.toJsValue (some expected) = .ok response ↔
      response.Answers expected := by
  by_cases hsuccess : response.outcome = "success"
  · rw [toJsValue_success hsuccess]
    by_cases hop : expected.expectedOperation = response.operation
    · rw [← createSuccessResponse_iff hsuccess hop]
      simp [createLinuxPowerHelperResponse, JsValue.asRecord, hasFieldOutside, field, List.lookup,
        hasOwn, hop]
    · rw [createLinuxPowerHelperResponse_mismatch hop (.inl rfl)]
      exact iff_of_false (by simp) fun hanswers => hop hanswers.1
  · cases response with
    | failure operation outcome code =>
        rw [toJsValue_failure]
        by_cases hop : expected.expectedOperation = operation
        · refine iff_of_true ?_ (answers_of_after?_eq_none hop rfl)
          simp [createLinuxPowerHelperResponse, JsValue.asRecord, hasFieldOutside, field,
            List.lookup, hop]
          cases outcome with
          | rejected =>
              simp [LinuxPowerHelperFailureOutcome.text, createFailureResponse, hasOwn, field,
                List.lookup]
              rfl
          | failed =>
              simp [LinuxPowerHelperFailureOutcome.text, createFailureResponse, hasOwn, field,
                List.lookup]
              rfl
        · rw [createLinuxPowerHelperResponse_mismatch hop (.inr rfl)]
          exact iff_of_false (by simp) fun hanswers => hop hanswers.1
    | _ => exact absurd rfl hsuccess

/-- A text, or the bytes of one. -/
def parseLinuxPowerHelperResponse (serialized : ByteArray ⊕ String)
    (expected : ExpectedOperationOrRequest) :
    Except LinuxPowerHelperProtocolErrorCode LinuxPowerHelperResponse := do
  let some text := serialized.elim decodeUtf8 some | throw .invalidUtf8
  if text = "" ∨ trim text = "" then throw .emptyResponse
  if '\r' ∈ text.toList ∨ text.toList.count '\n' > 1 then throw .multipleResponseLines
  if trim text ≠ text ∧ text.toList.getLast? ≠ some '\n' then throw .trailingResponseData
  let some parsed := Json.parseJs (trim text).toList | throw .invalidResponse
  createLinuxPowerHelperResponse parsed (some expected)

/-- Between a brace and the newline behind the other one, nothing is trimmed. -/
theorem trim_braces (body : List Char) :
    trim (String.ofList ('{' :: (body ++ ['}']) ++ ['\n'])) =
      String.ofList ('{' :: (body ++ ['}'])) := by
  have hopen : isSpace '{' = false := by decide
  have hclose : isSpace '}' = false := by decide
  have hnewline : isSpace '\n' = true := by decide
  simp only [trim, String.toList_ofList]
  rw [List.cons_append, List.dropWhile_cons_of_neg (by simp [hopen]), List.reverse_cons,
    List.reverse_append]
  simp [hclose, hnewline]

/-- The bytes of a line of a record are read as the record. -/
theorem parseLinuxPowerHelperResponse_print {escape : Char → List Char} (h : Json.Escapes escape)
    {fields : List (String × Json)} (hnat : (Json.obj fields).Naturals)
    (expected : ExpectedOperationOrRequest) :
    parseLinuxPowerHelperResponse
        (.inl (String.ofList ((Json.obj fields).print escape ++ ['\n'])).toByteArray) expected =
      createLinuxPowerHelperResponse (Json.obj fields).toJsValue (some expected) := by
  have hvisible := Json.print_visible h (.obj fields) hnat
  have hparse : Json.parseJs ((Json.obj fields).print escape) =
      some (Json.obj fields).toJsValue := by
    have hparse : Json.parse ((Json.obj fields).print escape ++ []) = some (.obj fields) :=
      Json.parse_print h hnat (by simp)
    rw [List.append_nil] at hparse
    rw [Json.parseJs, hparse, Option.map_some]
  have hnone (c : Char) (hc : c.toNat < 0x20) : c ∉ (Json.obj fields).print escape :=
    fun hmem => absurd (hvisible c hmem) (by omega)
  have hcount : ((Json.obj fields).print escape).count '\n' = 0 :=
    List.count_eq_zero.mpr (hnone '\n' (by decide))
  have hreturn : '\r' ∉ (Json.obj fields).print escape := hnone '\r' (by decide)
  have hprint : (Json.obj fields).print escape =
      '{' :: (Json.printFields escape fields ++ ['}']) := by rw [Json.print]
  have htrim : trim (String.ofList ((Json.obj fields).print escape ++ ['\n'])) =
      String.ofList ((Json.obj fields).print escape) := by
    rw [hprint]
    exact trim_braces _
  have hdecode : decodeUtf8 (String.ofList ((Json.obj fields).print escape ++ ['\n'])).toByteArray =
      some (String.ofList ((Json.obj fields).print escape ++ ['\n'])) := by
    rw [decodeUtf8, Json.fromUTF8?_toByteArray, Option.map_some, if_neg]
    rw [hprint]
    simp
  have hnonempty : String.ofList ((Json.obj fields).print escape) ≠ "" := by
    rw [hprint]
    simp
  unfold parseLinuxPowerHelperResponse
  have hlines : ¬('\r' ∈ (Json.obj fields).print escape ++ ['\n'] ∨
      ((Json.obj fields).print escape ++ ['\n']).count '\n' > 1) := by
    simp [hreturn, hcount]
  simp only [Sum.elim_inl, hdecode, htrim, String.toList_ofList, hparse]
  rw [if_neg (by simp [hnonempty]), if_neg hlines, if_neg (by simp)]

end AtlasManager.Power
