import AtlasManager.Power.LinuxPowerHelperProtocol
import AtlasManager.PowerHelper.Protocol

/-!
# AtlasManager.PowerHelper.ProtocolAgreement

The manager and its power helper have written their protocol twice, in two
languages.  Here the two are compared, over the bytes that pass between them.

* `readsRequest_iff` -- the helper reads a request as it was meant exactly when
  its instants lie in four-digit years;
* `readsResponse_iff` -- the manager reads every response the helper admits that
  fits what was asked.
-/

namespace AtlasManager.PowerHelper.ProtocolAgreement

open AtlasManager.Lib
open AtlasManager.Power (LinuxPowerHelperOperation LinuxPowerHelperRequest
  LinuxPowerHelperResponse ExpectedOperationOrRequest createLinuxPowerHelperRequest
  serializeLinuxPowerHelperRequest parseLinuxPowerHelperResponse)
open Protocol

/-! ## The same content -/

/-- The helper's request with the content of the manager's. -/
def requestContent (request : LinuxPowerHelperRequest) : Request :=
  ⟨Version, request.operation.text, request.requestedAt.text,
    (request.scheduledFor.map Timestamp.text).getD ""⟩

def wakeAlarmContent : Power.WakeAlarmState → WakeAlarmResult
  | .unsupported => ⟨WakeAlarmState.unsupported.text, ""⟩
  | .notScheduled => ⟨WakeAlarmState.notScheduled.text, ""⟩
  | .scheduled scheduledFor => ⟨WakeAlarmState.scheduled.text, scheduledFor.text⟩

def resultContent : LinuxPowerHelperResponse → Option ResponseResult
  | .readRtcInformation rtcTime wakeAlarm =>
    some { rtcInformation := some ⟨rtcTime.text, wakeAlarmContent wakeAlarm⟩ }
  | .readWakeAlarm result => some { wakeAlarm := some (wakeAlarmContent result) }
  | .mutation _ before after outcome _ =>
    some { mutation := some ⟨wakeAlarmContent before, wakeAlarmContent after, outcome.text⟩ }
  | .requestShutdown => some { shutdown := some ⟨true⟩ }
  | .failure _ _ _ => none

def codeContent : LinuxPowerHelperResponse → String
  | .failure _ _ code => code.text
  | _ => ""

/-- The helper's response with the content of the manager's. -/
def responseContent (response : LinuxPowerHelperResponse) : Response :=
  ⟨Version, response.operation.text, response.outcome, codeContent response,
    resultContent response⟩

/-- The helper takes the line of a request for that request. -/
def ReadsRequest (request : LinuxPowerHelperRequest) : Prop :=
  ∃ line, serializeLinuxPowerHelperRequest request = .ok line ∧
    parseRequestLine line.toByteArray = some (requestContent request)

/-- The manager takes the line of a response for that response. -/
def ReadsResponse (response : Response) (expected : ExpectedOperationOrRequest) : Prop :=
  ∃ line answer, MarshalResponse response = some line ∧
    parseLinuxPowerHelperResponse (.inl line) expected = .ok answer ∧
    responseContent answer = response

/-! ## Requests -/

/-- All instants of a request lie in years of four digits. -/
def FourDigitYears (request : LinuxPowerHelperRequest) : Prop :=
  FourDigitYear request.requestedAt ∧ ∀ scheduled ∈ request.scheduledFor, FourDigitYear scheduled

theorem length_timestamp_le (t : Timestamp) : t.text.length ≤ 27 := by
  rw [Timestamp.text, String.length_ofList, isoText, List.length_append, length_restText,
    length_yearText]
  split_ifs <;> omega

theorem length_operation_le (operation : LinuxPowerHelperOperation) :
    operation.text.length ≤ 20 := by
  cases operation <;> decide

theorem naturals_protocolVersion : Power.protocolVersion.Naturals := by
  show Json.IsNatural ['1']
  simp [Json.IsNatural, show Json.isDigit '1' = true by decide]

theorem naturals_request (request : LinuxPowerHelperRequest) : request.json.Naturals := by
  obtain ⟨operation, requestedAt, scheduledFor, _, _⟩ := request
  cases scheduledFor <;>
    simp [LinuxPowerHelperRequest.json, LinuxPowerHelperRequest.fields, Json.Naturals,
      Json.FieldNaturals, naturals_protocolVersion]

theorem bound_request (request : LinuxPowerHelperRequest) :
    4 * (request.json.bound + 1) ≤ MaxRequestBytes := by
  have hoperation := length_operation_le request.operation
  have hrequested := length_timestamp_le request.requestedAt
  have hnames : "version".length = 7 ∧ "operation".length = 9 ∧ "requestedAt".length = 11 ∧
      "scheduledFor".length = 12 := by decide
  cases hscheduled : request.scheduledFor with
  | none =>
      simp only [LinuxPowerHelperRequest.json, LinuxPowerHelperRequest.fields, hscheduled,
        Option.toList_none, List.map_nil, List.append_nil, Json.bound, Json.fieldsBound,
        Power.protocolVersion, List.length_singleton, MaxRequestBytes]
      omega
  | some scheduled =>
      have hlength := length_timestamp_le scheduled
      simp only [LinuxPowerHelperRequest.json, LinuxPowerHelperRequest.fields, hscheduled,
        Option.toList_some, List.map_cons, List.map_nil, List.cons_append, List.nil_append,
        Json.bound, Json.fieldsBound, Power.protocolVersion, List.length_singleton,
        MaxRequestBytes]
      omega

theorem nodup_request (request : LinuxPowerHelperRequest) :
    (request.fields.map Prod.fst).Nodup := by
  cases hscheduled : request.scheduledFor <;>
    simp [LinuxPowerHelperRequest.fields, hscheduled]

/-- A request is always short enough. -/
theorem serializeLinuxPowerHelperRequest_eq (request : LinuxPowerHelperRequest) :
    serializeLinuxPowerHelperRequest request =
      .ok (String.ofList (Json.stringify request.json ++ ['\n'])) := by
  have hsize := (Json.size_toByteArray (Json.stringify request.json ++ ['\n'])).2
  have hlength := Json.length_print_le Json.escapes_stringifyChar request.json
  have hbound := bound_request request
  rw [List.length_append, List.length_singleton] at hsize
  have hsmall : ¬ (String.ofList (Json.stringify request.json ++ ['\n'])).toByteArray.size >
      4096 := by
    unfold MaxRequestBytes at hbound
    rw [← Json.stringify] at hlength
    omega
  simp only [serializeLinuxPowerHelperRequest, Power.createLinuxPowerHelperRequest_json, bind,
    Except.bind, if_neg hsmall, pure, Except.pure]

theorem operation_mem (operation : LinuxPowerHelperOperation) :
    operation.text ∈ operations := by
  cases operation <;> decide

theorem text_eq_schedule_iff {operation : LinuxPowerHelperOperation} :
    operation.text = ScheduleWakeAlarm ↔ operation = .scheduleWakeAlarm := by
  cases operation <;> decide

theorem exactInteger_protocolVersion : exactInteger (some Power.protocolVersion) = some Version := by
  decide

/-- The helper takes the fields of a request for it, or for nothing. -/
theorem requestOf_fields_iff (request : LinuxPowerHelperRequest) :
    requestOf request.fields = some (requestContent request) ↔ FourDigitYears request := by
  obtain ⟨operation, requestedAt, scheduledFor, hschedules, hlater⟩ := request
  have hmem := operation_mem operation
  unfold FourDigitYears
  rw [← isCanonicalTimestamp_text]
  cases scheduledFor with
  | none =>
      have hop : operation.text ≠ ScheduleWakeAlarm := by
        rw [Ne, text_eq_schedule_iff]
        intro heq
        simp [heq] at hschedules
      by_cases hrequested : isCanonicalTimestamp requestedAt.text = true
      · simp [requestOf, requestContent, LinuxPowerHelperRequest.fields, List.lookup, exactString,
          exactInteger_protocolVersion, hmem, hop, hasExactKeys, hrequested]
      · simp [requestOf, LinuxPowerHelperRequest.fields, List.lookup, exactString,
          exactInteger_protocolVersion, hrequested]
  | some scheduled =>
      have hop : operation.text = ScheduleWakeAlarm :=
        text_eq_schedule_iff.mpr (hschedules.mp rfl)
      rw [hop] at hmem
      have hlt : ¬ scheduled.text ≤ requestedAt.text := not_le.mpr (hlater scheduled rfl)
      have hscheduled := @isCanonicalTimestamp_text scheduled
      by_cases hrequested : isCanonicalTimestamp requestedAt.text = true
      · by_cases hfor : isCanonicalTimestamp scheduled.text = true
        · simp [requestOf, requestContent, LinuxPowerHelperRequest.fields, List.lookup, exactString,
            exactInteger_protocolVersion, hmem, hop, hasExactKeys, hrequested, hfor, hlt, ← hscheduled]
        · simp [requestOf, LinuxPowerHelperRequest.fields, List.lookup, exactString,
            exactInteger_protocolVersion, hop, hrequested, hfor, ← hscheduled, hasExactKeys]
      · simp [requestOf, LinuxPowerHelperRequest.fields, List.lookup, exactString,
          exactInteger_protocolVersion, hrequested]

/-- **Requests**: the helper reads a request as it was meant exactly when its instants
lie in years of four digits. -/
theorem readsRequest_iff (request : LinuxPowerHelperRequest) :
    ReadsRequest request ↔ FourDigitYears request := by
  have hparse : parseRequestLine
      (String.ofList (Json.stringify request.json ++ ['\n'])).toByteArray =
      requestOf request.fields :=
    parseRequestLine_print Json.escapes_stringifyChar (naturals_request request)
      (nodup_request request) (bound_request request)
  rw [← requestOf_fields_iff, ← hparse]
  unfold ReadsRequest
  rw [serializeLinuxPowerHelperRequest_eq]
  simp

/-! ## Responses -/

theorem operation_eq_of_mem {operation : Operation} (h : operation ∈ operations) :
    ∃ o : LinuxPowerHelperOperation, o.text = operation := by
  simp only [operations, List.mem_cons, List.not_mem_nil, or_false] at h
  rcases h with rfl | rfl | rfl | rfl | rfl
  · exact ⟨.readRtcInformation, rfl⟩
  · exact ⟨.readWakeAlarm, rfl⟩
  · exact ⟨.scheduleWakeAlarm, rfl⟩
  · exact ⟨.cancelWakeAlarm, rfl⟩
  · exact ⟨.requestShutdown, rfl⟩

theorem exists_wakeAlarmContent {result : WakeAlarmResult}
    (h : validateWakeAlarmResult result = true) :
    ∃ state, wakeAlarmContent state = result := by
  obtain ⟨state, scheduledFor⟩ := result
  unfold validateWakeAlarmResult at h
  split_ifs at h with hnone hscheduled
  · obtain rfl : scheduledFor = "" := by simpa using h
    rcases hnone with rfl | rfl
    · exact ⟨.unsupported, rfl⟩
    · exact ⟨.notScheduled, rfl⟩
  · obtain ⟨t, ht, _⟩ := isCanonicalTimestamp_iff.mp h
    exact ⟨.scheduled t, by rw [wakeAlarmContent, ht]; simp_all⟩

theorem state_eq_notScheduled_iff {state : Power.WakeAlarmState} :
    (wakeAlarmContent state).state = WakeAlarmState.notScheduled.text ↔ state = .notScheduled := by
  cases state <;> simp [wakeAlarmContent, WakeAlarmState.text]

theorem state_eq_scheduled_iff {state : Power.WakeAlarmState} :
    (wakeAlarmContent state).state = WakeAlarmState.scheduled.text ↔
      ∃ scheduledFor, state = .scheduled scheduledFor := by
  cases state <;> simp [wakeAlarmContent, WakeAlarmState.text]

/-- The helper's rules for changes are the manager's. -/
theorem exists_of_validTransition {operation : LinuxPowerHelperOperation}
    {before after : Power.WakeAlarmState} {outcome : String}
    (h : validTransition operation.text
      ⟨wakeAlarmContent before, wakeAlarmContent after, outcome⟩ = true) :
    ∃ o : Power.WakeAlarmMutationOutcome, o.text = outcome ∧
      Power.isValidTransition (Power.mutationOperation operation) o before after = true := by
  unfold validTransition at h
  split_ifs at h with hschedule hscheduled hreplaced hunchanged hcancel hcancelled hnone
  all_goals
    simp only [Bool.and_eq_true, decide_eq_true_eq, state_eq_notScheduled_iff,
      state_eq_scheduled_iff] at h
  · obtain ⟨rfl, t, rfl⟩ := h
    obtain rfl := text_eq_schedule_iff.mp hschedule
    exact ⟨.scheduled, hscheduled.symm, rfl⟩
  · obtain ⟨⟨⟨t, rfl⟩, u, rfl⟩, hne⟩ := h
    obtain rfl := text_eq_schedule_iff.mp hschedule
    refine ⟨.replaced, hreplaced.symm, ?_⟩
    have htime : t ≠ u := fun heq => hne (by rw [heq])
    simpa [Power.isValidTransition, Power.mutationOperation] using htime
  · obtain ⟨⟨⟨t, rfl⟩, u, rfl⟩, heq⟩ := h
    obtain rfl := text_eq_schedule_iff.mp hschedule
    refine ⟨.unchanged, hunchanged.symm, ?_⟩
    simpa [Power.isValidTransition, Power.mutationOperation] using Timestamp.text_inj heq
  · obtain ⟨⟨t, rfl⟩, rfl⟩ := h
    have hop : operation ≠ .scheduleWakeAlarm := fun heq => hschedule (by rw [heq]; rfl)
    exact ⟨.cancelled, hcancelled.symm, by rw [Power.mutationOperation, if_neg hop]; rfl⟩
  · obtain ⟨rfl, rfl⟩ := h
    have hop : operation ≠ .scheduleWakeAlarm := fun heq => hschedule (by rw [heq]; rfl)
    exact ⟨.notScheduled, hnone.symm, by rw [Power.mutationOperation, if_neg hop]; rfl⟩

theorem exists_mutationContent {operation : LinuxPowerHelperOperation}
    {mutation : WakeAlarmMutationResult}
    (h : validateMutationResult operation.text mutation = true) :
    ∃ before after outcome, Power.isValidTransition (Power.mutationOperation operation)
        outcome before after = true ∧
      mutation = ⟨wakeAlarmContent before, wakeAlarmContent after, outcome.text⟩ := by
  obtain ⟨before, after, outcome⟩ := mutation
  simp only [validateMutationResult, Bool.and_eq_true] at h
  obtain ⟨⟨⟨_, hbefore⟩, hafter⟩, htransition⟩ := h
  obtain ⟨b, rfl⟩ := exists_wakeAlarmContent hbefore
  obtain ⟨a, rfl⟩ := exists_wakeAlarmContent hafter
  obtain ⟨o, rfl, hvalid⟩ := exists_of_validTransition htransition
  exact ⟨b, a, o, hvalid, rfl⟩

/-- What the helper admits as the result of an operation, the manager can say. -/
theorem exists_resultContent {operation : LinuxPowerHelperOperation} {result : ResponseResult}
    (h : validateResult operation.text result = true) :
    ∃ answer : LinuxPowerHelperResponse,
      responseContent answer = ⟨Version, operation.text, "success", "", some result⟩ := by
  unfold validateResult at h
  cases operation with
  | readRtcInformation =>
      rw [if_pos (by decide)] at h
      split at h
      · rename_i information
        obtain ⟨rtcTime, wakeAlarm⟩ := information
        rw [Bool.and_eq_true] at h
        obtain ⟨t, rfl, _⟩ := isCanonicalTimestamp_iff.mp h.1
        obtain ⟨state, rfl⟩ := exists_wakeAlarmContent h.2
        exact ⟨.readRtcInformation t state, rfl⟩
      · cases h
  | readWakeAlarm =>
      rw [if_neg (by decide), if_pos (by decide)] at h
      split at h
      · obtain ⟨state, rfl⟩ := exists_wakeAlarmContent h
        exact ⟨.readWakeAlarm state, rfl⟩
      · cases h
  | scheduleWakeAlarm =>
      rw [if_neg (by decide), if_neg (by decide), if_pos (by decide)] at h
      split at h
      · obtain ⟨before, after, outcome, hvalid, rfl⟩ := exists_mutationContent h
        exact ⟨.mutation .schedule before after outcome hvalid, rfl⟩
      · cases h
  | cancelWakeAlarm =>
      rw [if_neg (by decide), if_neg (by decide), if_pos (by decide)] at h
      split at h
      · obtain ⟨before, after, outcome, hvalid, rfl⟩ := exists_mutationContent h
        exact ⟨.mutation .cancel before after outcome hvalid, rfl⟩
      · cases h
  | requestShutdown =>
      rw [if_neg (by decide), if_neg (by decide), if_neg (by decide), if_pos (by decide)] at h
      split at h
      · rename_i shutdown
        obtain ⟨accepted⟩ := shutdown
        obtain rfl : accepted = true := h
        exact ⟨.requestShutdown, rfl⟩
      · cases h

theorem exists_failureOutcome {outcome : String} (h : ¬(outcome ≠ "rejected" ∧ outcome ≠ "failed")) :
    ∃ o : Power.LinuxPowerHelperFailureOutcome, o.text = outcome := by
  by_cases hrejected : outcome = "rejected"
  · exact ⟨.rejected, hrejected.symm⟩
  · have hfailed : outcome = "failed" := by
      by_contra hne
      exact h ⟨hrejected, hne⟩
    exact ⟨.failed, hfailed.symm⟩

theorem exists_failureCode {code : String} (h : isFailureCode code = true) :
    ∃ c : Power.LinuxPowerHelperFailureCode, c.text = code := by
  simp only [isFailureCode, List.mem_cons, List.not_mem_nil, or_false, decide_eq_true_eq] at h
  rcases h with rfl | rfl | rfl | rfl
  · exact ⟨.operationUnsupported, rfl⟩
  · exact ⟨.operationRejected, rfl⟩
  · exact ⟨.operationFailed, rfl⟩
  · exact ⟨.stateUnavailable, rfl⟩

/-- What the helper admits as a response, the manager can say. -/
theorem exists_responseContent {response : Response} (h : validateResponse response = true) :
    ∃ answer, responseContent answer = response := by
  obtain ⟨version, operation, outcome, code, result⟩ := response
  unfold validateResponse at h
  split_ifs at h with hknown hsuccess houtcome
  · simp only [not_or, not_not] at hknown
    obtain ⟨rfl, hmem⟩ := hknown
    obtain ⟨o, rfl⟩ := operation_eq_of_mem hmem
    dsimp only at hsuccess h
    subst hsuccess
    cases result with
    | none => simp at h
    | some result =>
        simp only [Bool.and_eq_true, decide_eq_true_eq, Option.any_some] at h
        obtain ⟨rfl, hresult⟩ := h
        exact exists_resultContent hresult
  · simp only [not_or, not_not] at hknown
    obtain ⟨rfl, hmem⟩ := hknown
    obtain ⟨o, rfl⟩ := operation_eq_of_mem hmem
    dsimp only at houtcome h
    obtain ⟨failure, rfl⟩ := exists_failureOutcome houtcome
    simp only [Bool.and_eq_true, Option.isNone_iff_eq_none] at h
    obtain ⟨rfl, hcode⟩ := h
    obtain ⟨c, rfl⟩ := exists_failureCode hcode
    exact ⟨.failure o failure c, rfl⟩

theorem operation_text_injective : Function.Injective LinuxPowerHelperOperation.text := by
  intro a b h
  have hread := a.oneOf_text
  rw [h, b.oneOf_text] at hread
  exact (Option.some.inj hread).symm

theorem code_text_injective : Function.Injective Power.LinuxPowerHelperFailureCode.text := by
  intro a b h
  have hread := a.oneOf_text
  rw [h, b.oneOf_text] at hread
  exact (Option.some.inj hread).symm

theorem outcome_text_injective : Function.Injective Power.WakeAlarmMutationOutcome.text := by
  intro a b h
  have hread := Power.oneOf_outcome a
  rw [h, Power.oneOf_outcome b] at hread
  exact (Option.some.inj hread).symm

theorem wakeAlarmContent_injective : Function.Injective wakeAlarmContent := by
  intro a b h
  cases a <;> cases b <;>
    simp [wakeAlarmContent, WakeAlarmState.text] at h <;> first | rfl | rw [Timestamp.text_inj h]

/-- Content tells responses apart. -/
theorem responseContent_injective : Function.Injective responseContent := by
  intro a b h
  obtain ⟨-, hoperation, houtcome, hcode, hresult⟩ := Response.mk.injEq .. ▸ h
  cases a with
  | readRtcInformation rtcTime wakeAlarm =>
      cases b with
      | readRtcInformation rtcTime' wakeAlarm' =>
          simp only [resultContent, Option.some.injEq, ResponseResult.mk.injEq,
            RTCInformationResult.mk.injEq, and_true] at hresult
          rw [Timestamp.text_inj hresult.1, wakeAlarmContent_injective hresult.2]
      | _ => simp [resultContent] at hresult
  | readWakeAlarm state =>
      cases b with
      | readWakeAlarm state' =>
          simp only [resultContent, Option.some.injEq, ResponseResult.mk.injEq, true_and,
            and_true] at hresult
          rw [wakeAlarmContent_injective hresult]
      | _ => simp [resultContent] at hresult
  | mutation operation before after outcome valid =>
      cases b with
      | mutation operation' before' after' outcome' valid' =>
          simp only [resultContent, Option.some.injEq, ResponseResult.mk.injEq,
            WakeAlarmMutationResult.mk.injEq, true_and, and_true] at hresult
          obtain ⟨hbefore, hafter, htext⟩ := hresult
          obtain rfl := wakeAlarmContent_injective hbefore
          obtain rfl := wakeAlarmContent_injective hafter
          obtain rfl := outcome_text_injective htext
          obtain rfl : operation = operation' := by
            have hop := operation_text_injective hoperation
            cases operation <;> cases operation' <;>
              simp [LinuxPowerHelperResponse.operation] at hop ⊢
          rfl
      | _ => simp [resultContent] at hresult
  | requestShutdown =>
      cases b with
      | requestShutdown => rfl
      | _ => simp [resultContent] at hresult
  | failure operation outcome code =>
      cases b with
      | failure operation' outcome' code' =>
          obtain rfl : operation = operation' := operation_text_injective hoperation
          obtain rfl : code = code' := code_text_injective hcode
          cases outcome <;> cases outcome' <;>
            simp [LinuxPowerHelperResponse.outcome, Power.LinuxPowerHelperFailureOutcome.text]
              at houtcome ⊢
      | _ => simp [resultContent] at hresult

/-! ## Lines of responses -/

theorem text_ne_empty (t : Timestamp) : t.text ≠ "" := by
  intro h
  have hlast := t.getLast?_text
  rw [h] at hlast
  cases hlast

@[simp] theorem json_wakeAlarmContent (state : Power.WakeAlarmState) :
    (wakeAlarmContent state).json = state.json := by
  cases state with
  | unsupported => rfl
  | notScheduled => rfl
  | scheduled scheduledFor =>
      simp [wakeAlarmContent, WakeAlarmResult.json, text_ne_empty, Power.WakeAlarmState.json,
        WakeAlarmState.text]

theorem json_resultContent {answer : LinuxPowerHelperResponse} {result : ResponseResult}
    (h : resultContent answer = some result) :
    (result.json answer.operation.text).map (fun json => ("result", json)) = some answer.answer := by
  cases answer with
  | failure operation outcome code => cases h
  | mutation operation before after outcome valid =>
      obtain rfl := Option.some.inj h
      cases operation <;>
        simp [ResponseResult.json, LinuxPowerHelperResponse.operation,
          LinuxPowerHelperOperation.text, LinuxPowerHelperResponse.answer, ReadRTCInformation,
          ScheduleWakeAlarm, CancelWakeAlarm]
  | _ =>
      obtain rfl := Option.some.inj h
      simp [ResponseResult.json, LinuxPowerHelperResponse.operation,
        LinuxPowerHelperOperation.text, LinuxPowerHelperResponse.answer, ReadRTCInformation,
        ScheduleWakeAlarm, CancelWakeAlarm, RequestShutdown]

/-- The helper writes a response as the manager would. -/
theorem json_responseContent {answer : LinuxPowerHelperResponse}
    (h : validateResponse (responseContent answer) = true) :
    (responseContent answer).json = some answer.json := by
  have hversion : versionJson Version = Power.protocolVersion := rfl
  unfold Response.json
  rw [h]
  by_cases hsuccess : answer.outcome = "success"
  · obtain ⟨result, hresult⟩ : ∃ result, resultContent answer = some result := by
      cases answer with
      | failure operation outcome code =>
          cases outcome <;>
            simp [LinuxPowerHelperResponse.outcome, Power.LinuxPowerHelperFailureOutcome.text]
              at hsuccess
      | _ => exact ⟨_, rfl⟩
    obtain ⟨json, hjson, hanswer⟩ := Option.map_eq_some_iff.mp (json_resultContent hresult)
    simp [responseContent, hsuccess, hresult, hjson, hanswer, hversion,
      LinuxPowerHelperResponse.json, LinuxPowerHelperResponse.fields]
  · cases answer with
    | failure operation outcome code =>
        simp [responseContent, hsuccess, hversion, LinuxPowerHelperResponse.json,
          LinuxPowerHelperResponse.fields, LinuxPowerHelperResponse.answer, codeContent]
    | _ => exact absurd rfl hsuccess

theorem naturals_wakeAlarm (state : Power.WakeAlarmState) : state.json.Naturals := by
  cases state <;> simp [Power.WakeAlarmState.json, Json.Naturals, Json.FieldNaturals]

theorem naturals_response (answer : LinuxPowerHelperResponse) : answer.json.Naturals := by
  cases answer <;>
    simp [LinuxPowerHelperResponse.json, LinuxPowerHelperResponse.fields,
      LinuxPowerHelperResponse.answer, Json.Naturals, Json.FieldNaturals, naturals_protocolVersion,
      naturals_wakeAlarm]

theorem bound_wakeAlarm (state : Power.WakeAlarmState) : state.json.bound ≤ 400 := by
  cases state with
  | unsupported => decide
  | notScheduled => decide
  | scheduled scheduledFor =>
      have hlength := length_timestamp_le scheduledFor
      have hnames : "state".length = 5 ∧ "scheduledFor".length = 12 ∧ "scheduled".length = 9 := by
        decide
      simp only [Power.WakeAlarmState.json, Json.bound, Json.fieldsBound]
      omega

theorem bound_answer (answer : LinuxPowerHelperResponse) :
    6 * answer.answer.1.length + answer.answer.2.bound ≤ 1200 := by
  have hnames : "result".length = 6 ∧ "rtcTime".length = 7 ∧ "wakeAlarm".length = 9 ∧
      "before".length = 6 ∧ "after".length = 5 ∧ "outcome".length = 7 ∧ "accepted".length = 8 := by
    decide
  cases answer with
  | readRtcInformation rtcTime wakeAlarm =>
      have htime := length_timestamp_le rtcTime
      have hwake := bound_wakeAlarm wakeAlarm
      simp only [LinuxPowerHelperResponse.answer, Json.bound, Json.fieldsBound]
      omega
  | readWakeAlarm result =>
      have hwake := bound_wakeAlarm result
      simp only [LinuxPowerHelperResponse.answer]
      omega
  | mutation operation before after outcome valid =>
      have hbefore := bound_wakeAlarm before
      have hafter := bound_wakeAlarm after
      have houtcome : outcome.text.length ≤ 13 := by cases outcome <;> decide
      simp only [LinuxPowerHelperResponse.answer, Json.bound, Json.fieldsBound]
      omega
  | requestShutdown =>
      simp only [LinuxPowerHelperResponse.answer, Json.bound, Json.fieldsBound]
      omega
  | failure operation outcome code =>
      have hcode : code.text.length ≤ 21 := by cases code <;> decide
      have hname : "code".length = 4 := by decide
      simp only [LinuxPowerHelperResponse.answer, Json.bound]
      omega

theorem bound_response (answer : LinuxPowerHelperResponse) :
    4 * (answer.json.bound + 1) ≤ MaxResponseBytes := by
  have hoperation := length_operation_le answer.operation
  have hanswer := bound_answer answer
  have hnames : "version".length = 7 ∧ "operation".length = 9 ∧ "outcome".length = 7 := by decide
  have houtcome : answer.outcome.length ≤ 8 := by
    cases answer with
    | failure operation outcome code =>
        show outcome.text.length ≤ 8
        cases outcome <;> decide
    | _ =>
        show "success".length ≤ 8
        decide
  simp only [LinuxPowerHelperResponse.json, LinuxPowerHelperResponse.fields, Json.bound,
    Json.fieldsBound, Power.protocolVersion, List.length_singleton, MaxResponseBytes]
  omega

/-- The line of a response is never too long. -/
theorem marshalResponse_eq {answer : LinuxPowerHelperResponse}
    (h : validateResponse (responseContent answer) = true) :
    MarshalResponse (responseContent answer) =
      some (String.ofList (answer.json.print marshalChar ++ ['\n'])).toByteArray := by
  have hsize := (Json.size_toByteArray (answer.json.print marshalChar ++ ['\n'])).2
  have hlength := Json.length_print_le escapes_marshalChar answer.json
  have hbound := bound_response answer
  rw [List.length_append, List.length_singleton] at hsize
  have hsmall : ¬ (String.ofList (answer.json.print marshalChar ++ ['\n'])).toByteArray.size >
      MaxResponseBytes := by omega
  simp only [MarshalResponse, json_responseContent h, Option.bind_eq_bind, Option.bind_some,
    if_neg hsmall]
  rfl

/-- **Responses**: the manager reads every response the helper admits that fits what
was asked. -/
theorem readsResponse_iff {answer : LinuxPowerHelperResponse}
    (h : validateResponse (responseContent answer) = true)
    (expected : ExpectedOperationOrRequest) :
    ReadsResponse (responseContent answer) expected ↔ answer.Answers expected := by
  have hparse : parseLinuxPowerHelperResponse
      (.inl (String.ofList (answer.json.print marshalChar ++ ['\n'])).toByteArray) expected =
      Power.createLinuxPowerHelperResponse answer.json.toJsValue (some expected) :=
    Power.parseLinuxPowerHelperResponse_print escapes_marshalChar (naturals_response answer) expected
  rw [← Power.createLinuxPowerHelperResponse_json_iff, ← hparse]
  unfold ReadsResponse
  rw [marshalResponse_eq h]
  constructor
  · rintro ⟨line, read, hline, hread, hcontent⟩
    rw [Option.some.inj hline, hread, responseContent_injective hcontent]
  · exact fun hread => ⟨_, answer, rfl, hread, rfl⟩

/-! ## Both directions -/

/-- Of a request to schedule, a response that tells of a changed alarm tells the
instant that was asked for. -/
def ArmsAsAsked (request : LinuxPowerHelperRequest) (response : Response) : Prop :=
  ∀ scheduled ∈ request.scheduledFor, ∀ result ∈ response.result, ∀ mutation ∈ result.mutation,
    mutation.after.scheduledFor = scheduled.text

theorem wakeAlarmContent_scheduledFor_iff {state : Power.WakeAlarmState} {t : Timestamp} :
    (wakeAlarmContent state).scheduledFor = t.text ↔ state = .scheduled t := by
  cases state with
  | unsupported => simp [wakeAlarmContent, (text_ne_empty t).symm]
  | notScheduled => simp [wakeAlarmContent, (text_ne_empty t).symm]
  | scheduled scheduledFor =>
      rw [wakeAlarmContent, Power.WakeAlarmState.scheduled.injEq]
      exact ⟨Timestamp.text_inj, fun heq => by rw [heq]⟩

theorem armsAsAsked_iff {request : LinuxPowerHelperRequest} {answer : LinuxPowerHelperResponse}
    (hop : answer.operation = request.operation) :
    ArmsAsAsked request (responseContent answer) ↔ answer.Answers (.request request) := by
  have hafter : ArmsAsAsked request (responseContent answer) ↔
      ∀ scheduled ∈ request.scheduledFor, ∀ after ∈ answer.after?, after = .scheduled scheduled := by
    cases answer with
    | mutation operation before after outcome valid =>
        simp [ArmsAsAsked, responseContent, resultContent, LinuxPowerHelperResponse.after?,
          wakeAlarmContent_scheduledFor_iff]
    | _ => simp [ArmsAsAsked, responseContent, resultContent, LinuxPowerHelperResponse.after?]
  rw [hafter]
  exact ⟨fun h => ⟨hop.symm, h⟩, fun h => h.2⟩

/-- **Agreement**: requests are read as they were meant exactly when their instants lie
in years of four digits.  Responses to the operation that was asked for are all read;
those that are held against the whole request, when they tell its instant.  Every
request is admitted (`createLinuxPowerHelperRequest_json`). -/
theorem codecs_agree_iff (request : LinuxPowerHelperRequest) :
    (ReadsRequest request ↔ FourDigitYears request) ∧
      ∀ response, validateResponse response = true →
        response.operation = request.operation.text →
        ReadsResponse response (.operation request.operation) ∧
          (ReadsResponse response (.request request) ↔ ArmsAsAsked request response) := by
  refine ⟨readsRequest_iff request, fun response hvalid hoperation => ?_⟩
  obtain ⟨answer, rfl⟩ := exists_responseContent hvalid
  have hop : answer.operation = request.operation := operation_text_injective hoperation
  rw [readsResponse_iff hvalid, readsResponse_iff hvalid, armsAsAsked_iff hop]
  refine ⟨⟨hop.symm, fun scheduled hscheduled => ?_⟩, Iff.rfl⟩
  cases hscheduled

/-- A request of the year 10000 is admitted, and the helper rejects its line. -/
theorem codecs_disagree :
    ∃ request, createLinuxPowerHelperRequest (.obj [("version", .num 1),
        ("operation", .str "read_wake_alarm"),
        ("requestedAt", .str "+010000-01-01T00:00:00.000Z")]) = .ok request ∧
      ¬ ReadsRequest request := by
  have htext : (Timestamp.mk 253402300800000 (by decide)).text = "+010000-01-01T00:00:00.000Z" := by
    decide +kernel
  refine ⟨⟨.readWakeAlarm, ⟨253402300800000, by decide⟩, none, by decide, by simp⟩, ?_, ?_⟩
  · rw [← htext, ← Power.createLinuxPowerHelperRequest_json]
    simp [LinuxPowerHelperRequest.json, LinuxPowerHelperRequest.fields, Json.toJsValue,
      Json.toJsFields, Json.assign, hasOwn, List.lookup, LinuxPowerHelperOperation.text]
  · rw [readsRequest_iff]
    intro hyears
    exact absurd hyears.1.2 (by decide +kernel)

end AtlasManager.PowerHelper.ProtocolAgreement
