import AtlasManager.Scheduling.WeeklySchedule

/-!
# AtlasManager.Scheduling.ServicePolicy

Availability policies from values of unknown type, and the values that are made of them.

* `createServiceAvailabilityPolicy_serializePolicy` -- what is saved of a policy is read
  back as the policy.
-/

namespace AtlasManager.Scheduling

open AtlasManager.Lib

inductive ServiceAvailabilityMode where
  | always
  | scheduled
  | manual
  | disabled
  deriving DecidableEq, Repr

def serviceAvailabilityModes : List ServiceAvailabilityMode :=
  [.always, .scheduled, .manual, .disabled]

def ServiceAvailabilityMode.text : ServiceAvailabilityMode → String
  | always => "always"
  | scheduled => "scheduled"
  | manual => "manual"
  | disabled => "disabled"

def ServiceAvailabilityPolicy.mode : ServiceAvailabilityPolicy → ServiceAvailabilityMode
  | always => .always
  | scheduled _ => .scheduled
  | manual => .manual
  | disabled => .disabled

/-- The only time zone of a schedule. -/
def serviceScheduleTimezone : String := "America/Sao_Paulo"

def createServiceAvailabilityMode : JsValue → Option ServiceAvailabilityMode :=
  oneOf serviceAvailabilityModes ServiceAvailabilityMode.text

/-- The policy that a value describes; nobody looks at which check has failed. -/
def createServiceAvailabilityPolicy (input : JsValue) : Option ServiceAvailabilityPolicy := do
  let fields ← input.asRecord
  guard (hasOwn fields "mode")
  match ← createServiceAvailabilityMode (field fields "mode") with
  | .always => guard (fields.length = 1); return .always
  | .manual => guard (fields.length = 1); return .manual
  | .disabled => guard (fields.length = 1); return .disabled
  | .scheduled =>
    guard (fields.length = 3 ∧ ["mode", "timezone", "windows"].all (hasOwn fields))
    guard (field fields "timezone" = .str serviceScheduleTimezone)
    match field fields "windows" with
    | .arr windows => (createWeeklyAvailabilitySchedule windows).map ServiceAvailabilityPolicy.scheduled
    | _ => none

/-- What is saved of a policy. -/
def serializePolicy : ServiceAvailabilityPolicy → JsValue
  | .scheduled schedule =>
    .obj [("mode", .str "scheduled"), ("timezone", .str serviceScheduleTimezone),
      ("windows", .arr (schedule.windows.map WeeklyAvailabilityWindow.toJs))]
  | policy => .obj [("mode", .str policy.mode.text)]

/-- **Round trip**: what is saved of a policy is read back as the policy. -/
@[simp] theorem createServiceAvailabilityPolicy_serializePolicy (policy : ServiceAvailabilityPolicy) :
    createServiceAvailabilityPolicy (serializePolicy policy) = some policy := by
  cases policy with
  | always => rfl
  | manual => rfl
  | disabled => rfl
  | scheduled schedule =>
      change (createWeeklyAvailabilitySchedule
        (schedule.windows.map WeeklyAvailabilityWindow.toJs)).map ServiceAvailabilityPolicy.scheduled = _
      rw [createWeeklyAvailabilitySchedule_toJs]
      rfl

end AtlasManager.Scheduling
