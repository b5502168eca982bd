import AtlasManager.Service.RegisteredService

/-!
# AtlasManager.Power.ShutdownRecords

The records that ports hand to the machine-shutdown path, and the checks that
turn an unknown value into one.

* `createMachineShutdownOccurrence` -- an occurrence wakes after it shuts down;
* `createWakeAlarmMutationResult` -- only consistent transitions are accepted;
* `createMachineShutdownReadinessDecision` -- approved exactly when nothing blocks.
-/

namespace AtlasManager.Power

open AtlasManager.Lib

/-! ## Occurrences -/

/-- A shutdown and the wake behind it. -/
structure MachineShutdownOccurrence where
  scheduledFor : Timestamp
  wakeScheduledFor : Timestamp
  ordered : scheduledFor.ms < wakeScheduledFor.ms
  deriving DecidableEq

/-- What can be wrong with the record of an occurrence. -/
inductive MachineShutdownOccurrenceValidationErrorCode where
  | invalidRecord
  | invalidField
  | invalidOperation
  | invalidScheduledFor
  | invalidWakeScheduledFor
  | invalidTimestampOrder
  deriving DecidableEq, Repr

namespace MachineShutdownOccurrence

/-- The fields that a record of an occurrence may have. -/
def fieldNames : List String := ["operation", "scheduledFor", "wakeScheduledFor"]

/-- The record of an occurrence. -/
def toJs (occurrence : MachineShutdownOccurrence) : JsValue :=
  .obj [("operation", .str "shutdown"), ("scheduledFor", .str occurrence.scheduledFor.text),
    ("wakeScheduledFor", .str occurrence.wakeScheduledFor.text)]

end MachineShutdownOccurrence

/-- The checks come one after the other, so the first one that fails names the error. -/
def createMachineShutdownOccurrence (input : JsValue) :
    Except MachineShutdownOccurrenceValidationErrorCode MachineShutdownOccurrence := do
  let some fields := input.asRecord | throw .invalidRecord
  if fields.length ≠ 3 ∨ hasFieldOutside MachineShutdownOccurrence.fieldNames fields then
    throw .invalidField
  let .str "shutdown" := field fields "operation" | throw .invalidOperation
  let some scheduledFor := (field fields "scheduledFor").timestamp? | throw .invalidScheduledFor
  let some wakeScheduledFor := (field fields "wakeScheduledFor").timestamp?
    | throw .invalidWakeScheduledFor
  if h : scheduledFor.ms < wakeScheduledFor.ms then
    return ⟨scheduledFor, wakeScheduledFor, h⟩
  else throw .invalidTimestampOrder

/-- Checking an occurrence again gives it back. -/
@[simp] theorem createMachineShutdownOccurrence_toJs (occurrence : MachineShutdownOccurrence) :
    createMachineShutdownOccurrence occurrence.toJs = .ok occurrence := by
  have hscheduled : field [("operation", JsValue.str "shutdown"),
      ("scheduledFor", .str occurrence.scheduledFor.text),
      ("wakeScheduledFor", .str occurrence.wakeScheduledFor.text)] "scheduledFor" =
      .str occurrence.scheduledFor.text := rfl
  have hwake : field [("operation", JsValue.str "shutdown"),
      ("scheduledFor", .str occurrence.scheduledFor.text),
      ("wakeScheduledFor", .str occurrence.wakeScheduledFor.text)] "wakeScheduledFor" =
      .str occurrence.wakeScheduledFor.text := rfl
  have hfields : hasFieldOutside MachineShutdownOccurrence.fieldNames
      [("operation", JsValue.str "shutdown"),
        ("scheduledFor", .str occurrence.scheduledFor.text),
        ("wakeScheduledFor", .str occurrence.wakeScheduledFor.text)] = false := rfl
  simp only [createMachineShutdownOccurrence, MachineShutdownOccurrence.toJs, JsValue.asRecord,
    hfields, hscheduled, hwake, JsValue.timestamp?_text, occurrence.ordered, dite_true]
  rfl

/-! ## Claims -/

/-- Was an occurrence claimed by this call, or has another one claimed it? -/
inductive MachineShutdownOccurrenceClaimOutcome where
  | claimed
  | duplicate
  deriving DecidableEq, Repr

/-- What can be wrong with the answer to a claim. -/
inductive MachineShutdownOccurrenceClaimResultValidationErrorCode where
  | invalidRecord
  | invalidField
  | invalidOutcome
  deriving DecidableEq, Repr

/-- The answer of a claim store is not trusted. -/
def createMachineShutdownOccurrenceClaimResult (input : JsValue) :
    Except MachineShutdownOccurrenceClaimResultValidationErrorCode
      MachineShutdownOccurrenceClaimOutcome := do
  let some fields := input.asRecord | throw .invalidRecord
  if fields.length ≠ 1 ∨ !hasOwn fields "outcome" then throw .invalidField
  match field fields "outcome" with
  | .str "claimed" => return .claimed
  | .str "duplicate" => return .duplicate
  | _ => throw .invalidOutcome

/-! ## Wake alarms -/

/-- What a device says of its alarm. -/
inductive WakeAlarmState where
  | unsupported
  | notScheduled
  | scheduled (scheduledFor : Timestamp)
  deriving DecidableEq

/-- What can be wrong with the state of an alarm. -/
inductive WakeAlarmStateValidationErrorCode where
  | invalidRecord
  | invalidField
  | invalidState
  | missingScheduledFor
  | unexpectedScheduledFor
  | invalidScheduledFor
  deriving DecidableEq, Repr

/-- Only an alarm that is scheduled has an instant. -/
def createWakeAlarmState (input : JsValue) :
    Except WakeAlarmStateValidationErrorCode WakeAlarmState := do
  let some fields := input.asRecord | throw .invalidRecord
  if hasFieldOutside ["state", "scheduledFor"] fields then throw .invalidField
  let withoutTime (state : WakeAlarmState) : Except _ WakeAlarmState :=
    if hasOwn fields "scheduledFor" then throw .unexpectedScheduledFor else pure state
  match field fields "state" with
  | .str "scheduled" =>
    if !hasOwn fields "scheduledFor" then throw .missingScheduledFor
    let some scheduledFor := (field fields "scheduledFor").timestamp?
      | throw .invalidScheduledFor
    return .scheduled scheduledFor
  | .str "unsupported" => withoutTime .unsupported
  | .str "not_scheduled" => withoutTime .notScheduled
  | _ => throw .invalidState

/-- The alarm is set, or it is turned off. -/
inductive WakeAlarmMutationOperation where
  | schedule
  | cancel
  deriving DecidableEq, Repr

def WakeAlarmMutationOperation.text : WakeAlarmMutationOperation → String
  | schedule => "schedule"
  | cancel => "cancel"

/-- What an operation did to the alarm. -/
inductive WakeAlarmMutationOutcome where
  | scheduled
  | replaced
  | unchanged
  | cancelled
  | notScheduled
  deriving DecidableEq, Repr

def WakeAlarmMutationOutcome.text : WakeAlarmMutationOutcome → String
  | scheduled => "scheduled"
  | replaced => "replaced"
  | unchanged => "unchanged"
  | cancelled => "cancelled"
  | notScheduled => "not_scheduled"

/-- Does an outcome of an operation go from one state to the other? -/
def isValidTransition (operation : WakeAlarmMutationOperation)
    (outcome : WakeAlarmMutationOutcome) (before after : WakeAlarmState) : Bool :=
  match operation, outcome, before, after with
  | .schedule, .scheduled, .notScheduled, .scheduled _ => true
  | .schedule, .replaced, .scheduled old, .scheduled new => old ≠ new
  | .schedule, .unchanged, .scheduled old, .scheduled new => old = new
  | .cancel, .cancelled, .scheduled _, .notScheduled => true
  | .cancel, .notScheduled, .notScheduled, .notScheduled => true
  | _, _, _, _ => false

/-- An operation on the alarm, with the states before and behind it. -/
structure WakeAlarmMutationResult where
  operation : WakeAlarmMutationOperation
  requestedAt : Timestamp
  outcome : WakeAlarmMutationOutcome
  before : WakeAlarmState
  after : WakeAlarmState
  valid : isValidTransition operation outcome before after = true
  deriving DecidableEq

/-- What can be wrong with the result of an operation. -/
inductive WakeAlarmMutationResultValidationErrorCode where
  | invalidRecord
  | invalidField
  | invalidOperation
  | invalidRequestedAt
  | invalidOutcome
  | invalidBefore
  | invalidAfter
  | unsupportedState
  | invalidTransition
  deriving DecidableEq, Repr

/-- The states are checked for themselves first, and then against the operation. -/
def createWakeAlarmMutationResult (input : JsValue) :
    Except WakeAlarmMutationResultValidationErrorCode WakeAlarmMutationResult := do
  let some fields := input.asRecord | throw .invalidRecord
  if hasFieldOutside ["operation", "requestedAt", "outcome", "before", "after"] fields then
    throw .invalidField
  let some operation := oneOf [.schedule, .cancel] WakeAlarmMutationOperation.text
    (field fields "operation") | throw .invalidOperation
  let some requestedAt := (field fields "requestedAt").timestamp? | throw .invalidRequestedAt
  let some outcome := oneOf [.scheduled, .replaced, .unchanged, .cancelled, .notScheduled]
    WakeAlarmMutationOutcome.text (field fields "outcome") | throw .invalidOutcome
  let before ← (createWakeAlarmState (field fields "before")).mapError fun _ => .invalidBefore
  let after ← (createWakeAlarmState (field fields "after")).mapError fun _ => .invalidAfter
  if before = .unsupported ∨ after = .unsupported then throw .unsupportedState
  if h : isValidTransition operation outcome before after then
    return ⟨operation, requestedAt, outcome, before, after, h⟩
  else throw .invalidTransition

/-- Is the alarm armed for an instant by a `schedule` operation? -/
def WakeAlarmMutationResult.SchedulesAt (result : WakeAlarmMutationResult)
    (instant : Timestamp) : Prop :=
  result.operation = .schedule ∧ result.after = .scheduled instant

instance (result : WakeAlarmMutationResult) (instant : Timestamp) :
    Decidable (result.SchedulesAt instant) := inferInstanceAs (Decidable (_ ∧ _))

/-- A `schedule` operation leaves the alarm scheduled. -/
theorem WakeAlarmMutationResult.after_of_schedule {result : WakeAlarmMutationResult}
    (h : result.operation = .schedule) : ∃ instant, result.SchedulesAt instant := by
  obtain ⟨operation, requestedAt, outcome, before, after, hvalid⟩ := result
  obtain rfl : operation = .schedule := h
  cases after with
  | scheduled instant => exact ⟨instant, rfl, rfl⟩
  | unsupported => cases outcome <;> cases before <;> simp [isValidTransition] at hvalid
  | notScheduled => cases outcome <;> cases before <;> simp [isValidTransition] at hvalid

/-! ## Shutdown requests -/

/-- A helper for trials simulates a shutdown, the one of the machine accepts it. -/
inductive MachineShutdownRequestOutcome where
  | simulated
  | accepted
  deriving DecidableEq, Repr

/-- The answer to a request for a shutdown. -/
structure MachineShutdownResult where
  requestedAt : Timestamp
  outcome : MachineShutdownRequestOutcome
  deriving DecidableEq

/-- What can be wrong with the answer to a request. -/
inductive MachineShutdownResultValidationErrorCode where
  | invalidRecord
  | invalidField
  | invalidOperation
  | invalidRequestedAt
  | invalidOutcome
  deriving DecidableEq, Repr

/-- The answer of a controller is not trusted. -/
def createMachineShutdownResult (input : JsValue) :
    Except MachineShutdownResultValidationErrorCode MachineShutdownResult := do
  let some fields := input.asRecord | throw .invalidRecord
  if hasFieldOutside ["operation", "requestedAt", "outcome"] fields then throw .invalidField
  let .str "shutdown" := field fields "operation" | throw .invalidOperation
  let some requestedAt := (field fields "requestedAt").timestamp? | throw .invalidRequestedAt
  match field fields "outcome" with
  | .str "simulated" => return ⟨requestedAt, .simulated⟩
  | .str "accepted" => return ⟨requestedAt, .accepted⟩
  | _ => throw .invalidOutcome

end AtlasManager.Power
