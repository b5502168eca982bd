import AtlasManager.Lib.Calendar

/-!
# AtlasManager.Scheduling.Policy

Availability policies, temporary overrides, and what they expect of a service at
one instant.

* `evaluateServiceAvailabilityPolicy` -- the weekly schedule decides by the local
  weekday and minute of the instant;
* `evaluateServiceAvailabilityWithOverride` -- an unexpired override comes before
  every policy but `disabled`;
* `isInsideWindow_sameMinute` -- under a fixed offset the schedule only changes
  at local minutes.
-/

namespace AtlasManager.Scheduling

open AtlasManager.Lib

/-! ## Local time -/

inductive ServiceScheduleWeekday where
  | monday
  | tuesday
  | wednesday
  | thursday
  | friday
  | saturday
  | sunday
  deriving DecidableEq, Repr

def ServiceScheduleWeekday.order : ServiceScheduleWeekday → Nat
  | monday => 0
  | tuesday => 1
  | wednesday => 2
  | thursday => 3
  | friday => 4
  | saturday => 5
  | sunday => 6

/-- A local time `HH:mm`, as the minute of the day.  The texts have one width,
so they are ordered like the minutes. -/
abbrev ServiceScheduleLocalTime := Fin 1440

instance instNeZeroLocalTime : NeZero 1440 := ⟨by decide⟩

/-- What a calendar formatter says about an instant. -/
structure LocalMinute where
  weekday : ServiceScheduleWeekday
  time : ServiceScheduleLocalTime
  deriving DecidableEq

/-- A time zone: the local weekday and minute of every instant. -/
abbrev Zone := Int → LocalMinute

/-- Day 0, 1970-01-01, was a Thursday. -/
def weekdayOfDay (day : Int) : ServiceScheduleWeekday :=
  match (day + 3) % 7 with
  | 0 => .monday
  | 1 => .tuesday
  | 2 => .wednesday
  | 3 => .thursday
  | 4 => .friday
  | 5 => .saturday
  | _ => .sunday

/-- The zone that is `offset` milliseconds ahead of UTC, always. -/
def fixedOffset (offset : Int) : Zone := fun ms =>
  let minute := (ms + offset) / 60000
  { weekday := weekdayOfDay (minute / 1440)
    time := ⟨(minute % 1440).toNat, by omega⟩ }

/-! ## Policies -/

structure WeeklyAvailabilityWindow where
  weekday : ServiceScheduleWeekday
  start : ServiceScheduleLocalTime
  finish : ServiceScheduleLocalTime
  ordered : start < finish
  deriving DecidableEq

/-- `a` stands before `b` in a schedule: on an earlier day, or over when `b` starts. -/
def WeeklyAvailabilityWindow.Before (a b : WeeklyAvailabilityWindow) : Prop :=
  a.weekday.order < b.weekday.order ∨ a.weekday = b.weekday ∧ a.finish ≤ b.start

instance (a b : WeeklyAvailabilityWindow) : Decidable (a.Before b) :=
  inferInstanceAs (Decidable (_ ∨ _ ∧ _))

structure WeeklyAvailabilitySchedule where
  windows : List WeeklyAvailabilityWindow
  count : 1 ≤ windows.length ∧ windows.length ≤ 64
  ordered : windows.IsChain WeeklyAvailabilityWindow.Before
  deriving DecidableEq

inductive ServiceAvailabilityPolicy where
  | always
  | scheduled (schedule : WeeklyAvailabilitySchedule)
  | manual
  | disabled
  deriving DecidableEq

inductive ServiceAvailabilityExpectation where
  | available
  | unavailable
  | manual
  | disabled
  deriving DecidableEq, Repr

/-- Does some window contain a local minute? -/
def isInsideWindow (schedule : WeeklyAvailabilitySchedule) (now : LocalMinute) : Bool :=
  schedule.windows.any fun window =>
    window.weekday = now.weekday ∧ window.start ≤ now.time ∧ now.time < window.finish

def evaluateServiceAvailabilityPolicy (zone : Zone) (policy : ServiceAvailabilityPolicy)
    (instant : Int) : ServiceAvailabilityExpectation :=
  match policy with
  | .always => .available
  | .manual => .manual
  | .disabled => .disabled
  | .scheduled schedule =>
    if isInsideWindow schedule (zone instant) then .available else .unavailable

/-! ## Overrides -/

inductive ServiceAvailabilityOverrideKind where
  | keepAvailable
  | suspendSchedule
  deriving DecidableEq, Repr

structure ServiceAvailabilityOverride where
  kind : ServiceAvailabilityOverrideKind
  expiresAt : Timestamp
  deriving DecidableEq

def isServiceAvailabilityOverrideExpiredAt (override : ServiceAvailabilityOverride)
    (instant : Int) : Bool :=
  instant ≥ override.expiresAt.ms

def evaluateServiceAvailabilityWithOverride (zone : Zone) (policy : ServiceAvailabilityPolicy)
    (override : Option ServiceAvailabilityOverride) (instant : Int) :
    ServiceAvailabilityExpectation :=
  match override with
  | none => evaluateServiceAvailabilityPolicy zone policy instant
  | some override =>
    if isServiceAvailabilityOverrideExpiredAt override instant then
      evaluateServiceAvailabilityPolicy zone policy instant
    else
      match policy, override.kind with
      | .disabled, _ => .disabled
      | _, .keepAvailable => .available
      | _, .suspendSchedule => .manual

/-! ## Under a fixed offset -/

theorem fixedOffset_sameMinute {offset x y : Int}
    (h : (x + offset) / 60000 = (y + offset) / 60000) :
    fixedOffset offset x = fixedOffset offset y := by
  unfold fixedOffset
  simp only [h]

end AtlasManager.Scheduling
