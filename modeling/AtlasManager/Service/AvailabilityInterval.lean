import AtlasManager.Lib.Grid
import AtlasManager.Scheduling.Transitions
import AtlasManager.Service.RegisteredService

/-!
# AtlasManager.Service.AvailabilityInterval

Is a service required at some instant of an interval, and when first?  The
answer decides whether the machine may be off during the interval.

* `evaluateRegisteredServiceAvailabilityForInterval` -- the scan of the interval;
* `Agrees` -- what the answer should be, by the evaluation at single instants;
* `interval_agrees_iff` -- when it is, under a fixed offset.
-/

namespace AtlasManager.Service

open AtlasManager.Lib AtlasManager.Scheduling

inductive AvailabilityIntervalError where
  | invalidServiceId
  | invalidInterval
  deriving DecidableEq, Repr

/-- Instants stand for their canonical texts. -/
inductive AvailabilityIntervalOutcome where
  | notRequired
  | required (firstRequiredAt : Int)
  deriving DecidableEq, Repr

structure RegisteredServiceAvailabilityInterval where
  serviceId : String
  startsAt : Timestamp
  endsAt : Timestamp
  outcome : AvailabilityIntervalOutcome
  /-- left out of the record when empty -/
  transitions : List ServiceAvailabilityPolicyTransition
  deriving DecidableEq

/-! ## The scan -/

/-- A preview of at most five transitions; an interval the calculator rejects has none. -/
def computeUpcomingTransitions (zone : Zone) (policy : ServiceAvailabilityPolicy)
    (startsAt endsAt : Int) : List ServiceAvailabilityPolicyTransition :=
  match policy with
  | .scheduled _ =>
    let floor := startsAt / 60000 * 60000
    let ceil := -(-endsAt / 60000) * 60000
    if ceil ≤ floor then []
    else
      match calculateServiceAvailabilityPolicyTransitions zone policy floor ceil with
      | .ok transitions => transitions.take 5
      | .error _ => []
  | _ => []

/-- The first visited point at which the service is expected to be available. -/
def findRequiredAt (zone : Zone) (policy : ServiceAvailabilityPolicy) (start finish : Int)
    (override : Option ServiceAvailabilityOverride) (evaluateBase : Bool) : Option Int :=
  let first := start
  if evaluateBase ∧ policy = .always then some first
  else
    let candidate := -(-start / 60000) * 60000
    let point (instant : Int) := if instant = first then first else max instant candidate
    let suspended (instant : Int) := override.any fun o => instant < o.expiresAt.ms
    let expectation (instant : Int) :=
      if suspended instant then .manual
      else evaluateServiceAvailabilityWithOverride zone policy none instant
    (((minutesBelow first finish).map point).takeWhile (· < finish)).find? fun instant =>
      expectation instant = .available

def AvailabilityIntervalOutcome.found : Option Int → AvailabilityIntervalOutcome
  | none => .notRequired
  | some instant => .required instant

/-- The outcome of the scan of an admitted interval. -/
def intervalOutcome (zone : Zone) (policy : ServiceAvailabilityPolicy)
    (override : Option ServiceAvailabilityOverride) (start finish : Int) :
    AvailabilityIntervalOutcome :=
  if policy = .disabled ∨ policy = .manual then .notRequired
  else
    match override.filter fun o => start < o.expiresAt.ms with
    | some active =>
      match active.kind with
      | .keepAvailable => .required start
      | .suspendSchedule =>
        let after := max start active.expiresAt.ms
        .found (findRequiredAt zone policy after finish (some active) false)
    | none =>
      if policy = .always then .required start
      else .found (findRequiredAt zone policy start finish none true)

def evaluateRegisteredServiceAvailabilityForInterval (zone : Zone) (serviceId : String)
    (policy : ServiceAvailabilityPolicy) (override : Option ServiceAvailabilityOverride)
    (startsAt endsAt : String) :
    Except AvailabilityIntervalError RegisteredServiceAvailabilityInterval :=
  if !isServiceId serviceId then .error .invalidServiceId
  else
    match Timestamp.ofText? startsAt, Timestamp.ofText? endsAt with
    | some starts, some ends =>
      if starts.ms ≥ ends.ms ∨ ends.ms - starts.ms > maximumInterval then .error .invalidInterval
      else
        .ok {
          serviceId
          startsAt := starts
          endsAt := ends
          outcome := intervalOutcome zone policy override starts.ms ends.ms
          transitions := computeUpcomingTransitions zone policy starts.ms ends.ms }
    | _, _ => .error .invalidInterval

/-! ## What the answer should be -/

/-- Is the service expected to be available at an instant? -/
def availableAt (zone : Zone) (policy : ServiceAvailabilityPolicy)
    (override : Option ServiceAvailabilityOverride) (instant : Int) : Bool :=
  evaluateServiceAvailabilityWithOverride zone policy override instant = .available

/-- The outcome names the least of a set of instants, and none when the set is empty. -/
def NamesLeast (instants : Set Int) : AvailabilityIntervalOutcome → Prop
  | .required instant => IsLeast instants instant
  | .notRequired => instants = ∅

/-- The service is required exactly when it is expected to be available at some
instant of the interval, and the first such instant is reported. -/
def Agrees (zone : Zone) (policy : ServiceAvailabilityPolicy)
    (override : Option ServiceAvailabilityOverride)
    (result : RegisteredServiceAvailabilityInterval) : Prop :=
  NamesLeast (holdsIn (availableAt zone policy override) result.startsAt.ms result.endsAt.ms)
    result.outcome

/-! ## When it is -/

/-- The override that is still in force at the start of the interval. -/
def activeOverride (override : Option ServiceAvailabilityOverride) (start : Int) :
    Option ServiceAvailabilityOverride :=
  override.filter fun o => start < o.expiresAt.ms

/-- A search of a schedule from `first` on sees its first window: it starts at a
local minute or inside a window, or there is no window to see. -/
def ScanSees (offset : Int) (schedule : WeeklyAvailabilitySchedule) (first finish : Int) : Prop :=
  (first + offset) % 60000 = 0 ∨ isInsideWindow schedule (fixedOffset offset first) = true ∨
    ∀ t, first ≤ t → t < finish → isInsideWindow schedule (fixedOffset offset t) = false

/-- No `keep_available` override is in force on a manual service, and the scan of
a schedule, from the start or the end of a suspension, sees its first window. -/
def ScanCondition (offset : Int) (policy : ServiceAvailabilityPolicy)
    (override : Option ServiceAvailabilityOverride) (start finish : Int) : Prop :=
  match policy, activeOverride override start with
  | .manual, some active => active.kind ≠ .keepAvailable
  | .scheduled schedule, none => ScanSees offset schedule start finish
  | .scheduled schedule, some active =>
    active.kind = .keepAvailable ∨ ScanSees offset schedule active.expiresAt.ms finish
  | _, _ => True

section Scan

variable {zone : Zone} {policy : ServiceAvailabilityPolicy}
  {override : Option ServiceAvailabilityOverride} {start finish : Int}

/-- The rounding of `findRequiredAt` moves no point. -/
theorem scanPoints_eq (first finish : Int) :
    ((minutesBelow first finish).map fun instant =>
      if instant = first then first else max instant (-(-first / 60000) * 60000)).takeWhile
        (· < finish) = minutesBelow first finish := by
  have hmap : (minutesBelow first finish).map (fun instant =>
      if instant = first then first else max instant (-(-first / 60000) * 60000)) =
      minutesBelow first finish := by
    refine (List.map_congr_left fun x hx => ?_).trans (List.map_id _)
    rw [mem_minutesBelow] at hx
    simp only [id]
    split <;> omega
  have hall : ∀ x ∈ minutesBelow first finish, decide (x < finish) = true := by
    intro x hx
    rw [mem_minutesBelow] at hx
    simpa using hx.2.1
  have hwhile : (minutesBelow first finish ++ []).takeWhile (· < finish) =
      minutesBelow first finish ++ [] := List.takeWhile_append_of_pos hall
  rw [List.append_nil] at hwhile
  rw [hmap, hwhile]

/-- A scan that starts when no override is in force any more looks for the first
point that the policy makes available. -/
theorem findRequiredAt_eq (hover : ∀ o ∈ override, o.expiresAt.ms ≤ start) (evaluateBase : Bool)
    (hbase : ¬ (evaluateBase = true ∧ policy = .always)) :
    findRequiredAt zone policy start finish override evaluateBase =
      (minutesBelow start finish).find? (availableAt zone policy none) := by
  simp only [findRequiredAt]
  rw [if_neg hbase, scanPoints_eq, ← List.head?_filter, ← List.head?_filter]
  refine congrArg List.head? (List.filter_congr fun t ht => ?_)
  rw [mem_minutesBelow] at ht
  have hnot : override.any (fun o => decide (t < o.expiresAt.ms)) = false := by
    cases override with
    | none => rfl
    | some o =>
        have := hover o rfl
        simp only [Option.any_some, decide_eq_false_iff_not]
        omega
  simp only [hnot, Bool.false_eq_true, if_false, availableAt]

theorem availableAt_scheduled (schedule : WeeklyAvailabilitySchedule) (t : Int) :
    availableAt zone (.scheduled schedule) none t = isInsideWindow schedule (zone t) := by
  simp only [availableAt, evaluateServiceAvailabilityWithOverride,
    evaluateServiceAvailabilityPolicy]
  by_cases hin : isInsideWindow schedule (zone t) = true <;> simp [hin]

theorem availableAt_sameMinute (offset : Int) (schedule : WeeklyAvailabilitySchedule) (x y : Int)
    (h : SameMinute offset x y) :
    availableAt (fixedOffset offset) (.scheduled schedule) none x =
      availableAt (fixedOffset offset) (.scheduled schedule) none y := by
  rw [availableAt_scheduled, availableAt_scheduled, fixedOffset_sameMinute h]

/-- The scan names the first available point when the policy is `always`. -/
theorem namesLeast_always (first finish : Int) :
    NamesLeast (holdsIn (availableAt zone .always none) first finish)
      (.found ((minutesBelow first finish).find? (availableAt zone .always none))) := by
  have hsame : ∀ x y, SameMinute 0 x y →
      availableAt zone .always none x = availableAt zone .always none y := fun _ _ _ => rfl
  have hleast := (find?_minutesBelow_isLeast first finish hsame).mpr (Or.inr (Or.inl rfl))
  cases hfind : (minutesBelow first finish).find? (availableAt zone .always none) with
  | none =>
      rw [hfind] at hleast
      exact hleast
  | some x =>
      rw [hfind] at hleast
      exact hleast

/-- The scan of a schedule is right exactly when it sees the first window. -/
theorem namesLeast_scheduled_iff (offset : Int) (schedule : WeeklyAvailabilitySchedule)
    (first finish : Int) :
    NamesLeast (holdsIn (availableAt (fixedOffset offset) (.scheduled schedule) none) first finish)
      (.found ((minutesBelow first finish).find?
        (availableAt (fixedOffset offset) (.scheduled schedule) none))) ↔
    ScanSees offset schedule first finish := by
  have hleast := find?_minutesBelow_isLeast first finish (availableAt_sameMinute offset schedule)
  have hsees : ((first + offset) % 60000 = 0 ∨
      availableAt (fixedOffset offset) (.scheduled schedule) none first = true ∨
      holdsIn (availableAt (fixedOffset offset) (.scheduled schedule) none) first finish = ∅) ↔
      ScanSees offset schedule first finish := by
    rw [ScanSees, availableAt_scheduled]
    refine or_congr_right (or_congr_right ?_)
    rw [Set.eq_empty_iff_forall_notMem]
    constructor
    · intro h t hle hlt
      rw [← availableAt_scheduled, Bool.eq_false_iff]
      exact fun hin => h t ⟨hle, hlt, hin⟩
    · rintro h t ⟨hle, hlt, hin⟩
      rw [availableAt_scheduled, h t hle hlt] at hin
      contradiction
  rw [← hsees, ← hleast]
  cases (minutesBelow first finish).find?
      (availableAt (fixedOffset offset) (.scheduled schedule) none) with
  | none => exact Iff.rfl
  | some x => exact Iff.rfl

theorem availableAt_of_expired {o : ServiceAvailabilityOverride} {t : Int}
    (h : o.expiresAt.ms ≤ t) :
    availableAt zone policy (some o) t = availableAt zone policy none t := by
  have hexpired : isServiceAvailabilityOverrideExpiredAt o t = true := by
    simpa [isServiceAvailabilityOverrideExpiredAt] using h
  have heq : evaluateServiceAvailabilityWithOverride zone policy (some o) t =
      evaluateServiceAvailabilityWithOverride zone policy none t := by
    simp only [evaluateServiceAvailabilityWithOverride, hexpired, if_true]
  rw [availableAt, heq, availableAt]

/-- With no override in force at the start, the policy decides throughout. -/
theorem availableAt_of_inactive (hinactive : activeOverride override start = none) {t : Int}
    (ht : start ≤ t) : availableAt zone policy override t = availableAt zone policy none t := by
  cases override with
  | none => rfl
  | some o =>
      have hnot := Option.filter_eq_none_iff.mp hinactive o rfl
      have hexpires : o.expiresAt.ms ≤ start := by simpa using hnot
      exact availableAt_of_expired (hexpires.trans ht)

/-- A suspension hides everything up to its end and nothing after. -/
theorem availableAt_of_suspended {o : ServiceAvailabilityOverride}
    (hkind : o.kind = .suspendSchedule) (t : Int) :
    availableAt zone policy (some o) t =
      (decide (o.expiresAt.ms ≤ t) && availableAt zone policy none t) := by
  by_cases ht : o.expiresAt.ms ≤ t
  · rw [availableAt_of_expired ht, decide_eq_true ht, Bool.true_and]
  · have hactive : isServiceAvailabilityOverrideExpiredAt o t = false := by
      simp only [isServiceAvailabilityOverrideExpiredAt, decide_eq_false_iff_not]
      exact ht
    rw [decide_eq_false ht, Bool.false_and]
    cases policy <;>
      simp [availableAt, evaluateServiceAvailabilityWithOverride, hactive, hkind]

theorem availableAt_of_kept {o : ServiceAvailabilityOverride} (hkind : o.kind = .keepAvailable)
    (hpolicy : policy ≠ .disabled) {t : Int} (ht : t < o.expiresAt.ms) :
    availableAt zone policy (some o) t = true := by
  have hactive : isServiceAvailabilityOverrideExpiredAt o t = false := by
    simp only [isServiceAvailabilityOverrideExpiredAt, decide_eq_false_iff_not]
    omega
  cases policy <;>
    simp_all [availableAt, evaluateServiceAvailabilityWithOverride]

/-- Under a suspension the interval begins at its end. -/
theorem holdsIn_of_suspended {o : ServiceAvailabilityOverride}
    (hkind : o.kind = .suspendSchedule) (hactive : start < o.expiresAt.ms) :
    holdsIn (availableAt zone policy (some o)) start finish =
      holdsIn (availableAt zone policy none) o.expiresAt.ms finish := by
  ext t
  simp only [holdsIn, Set.mem_ofPred_eq, availableAt_of_suspended hkind, Bool.and_eq_true,
    decide_eq_true_eq]
  constructor
  · rintro ⟨-, hlt, hexpires, hin⟩
    exact ⟨hexpires, hlt, hin⟩
  · rintro ⟨hexpires, hlt, hin⟩
    exact ⟨hactive.le.trans hexpires, hlt, hexpires, hin⟩

theorem holdsIn_of_inactive (hinactive : activeOverride override start = none) :
    holdsIn (availableAt zone policy override) start finish =
      holdsIn (availableAt zone policy none) start finish := by
  ext t
  simp only [holdsIn, Set.mem_ofPred_eq]
  refine and_congr_right fun hle => ?_
  rw [availableAt_of_inactive hinactive hle]

theorem namesLeast_start {instants : Set Int} (hsub : ∀ t ∈ instants, start ≤ t)
    (hmem : start ∈ instants) : NamesLeast instants (.required start) :=
  ⟨hmem, fun t ht => hsub t ht⟩

end Scan

/-! ## The theorem -/

section Outcome

variable {offset : Int} {zone : Zone} {override : Option ServiceAvailabilityOverride}
  {start finish : Int}

theorem namesLeast_disabled :
    NamesLeast (holdsIn (availableAt zone .disabled override) start finish) .notRequired := by
  refine Set.eq_empty_iff_forall_notMem.mpr ?_
  rintro t ⟨-, -, hin⟩
  have hout : availableAt zone .disabled override t = false := by
    cases override with
    | none => rfl
    | some o =>
        cases hexpired : isServiceAvailabilityOverrideExpiredAt o t <;>
          simp [availableAt, evaluateServiceAvailabilityWithOverride, hexpired,
            evaluateServiceAvailabilityPolicy]
  rw [hout] at hin
  contradiction

/-- A manual service is required only while it is kept available. -/
theorem namesLeast_manual_iff (hlt : start < finish) :
    NamesLeast (holdsIn (availableAt zone .manual override) start finish) .notRequired ↔
      ∀ active ∈ activeOverride override start, active.kind ≠ .keepAvailable := by
  have hbase : ∀ first, holdsIn (availableAt zone .manual none) first finish = ∅ := fun _ =>
    Set.eq_empty_iff_forall_notMem.mpr fun t ht => Bool.false_ne_true ht.2.2
  cases hactive : activeOverride override start with
  | none =>
      rw [NamesLeast, holdsIn_of_inactive hactive, hbase]
      simp
  | some active =>
      obtain ⟨rfl, hbefore⟩ := Option.filter_eq_some_iff.mp hactive
      rw [decide_eq_true_eq] at hbefore
      simp only [NamesLeast, Option.mem_some_iff, forall_eq']
      cases hkind : active.kind with
      | keepAvailable =>
          have hmem : start ∈ holdsIn (availableAt zone .manual (some active)) start finish :=
            ⟨le_refl _, hlt, availableAt_of_kept hkind (by simp) hbefore⟩
          refine iff_of_false ?_ (by simp)
          intro hempty
          rw [hempty] at hmem
          exact hmem
      | suspendSchedule =>
          rw [holdsIn_of_suspended hkind hbefore]
          exact iff_of_true (hbase _) (by simp)

/-- A service that is neither manual nor disabled and kept available is required at once. -/
theorem namesLeast_of_kept {policy : ServiceAvailabilityPolicy} {active : ServiceAvailabilityOverride}
    (hpolicy : policy ≠ .disabled) (hkind : active.kind = .keepAvailable)
    (hbefore : start < active.expiresAt.ms) (hlt : start < finish) :
    NamesLeast (holdsIn (availableAt zone policy (some active)) start finish) (.required start) :=
  namesLeast_start (fun _ h => h.1) ⟨le_refl _, hlt, availableAt_of_kept hkind hpolicy hbefore⟩

theorem intervalOutcome_agrees_iff (policy : ServiceAvailabilityPolicy) (hlt : start < finish) :
    NamesLeast (holdsIn (availableAt (fixedOffset offset) policy override) start finish)
      (intervalOutcome (fixedOffset offset) policy override start finish) ↔
    ScanCondition offset policy override start finish := by
  cases policy with
  | disabled => exact iff_of_true namesLeast_disabled trivial
  | manual =>
      refine (namesLeast_manual_iff hlt).trans ?_
      simp only [ScanCondition]
      cases activeOverride override start with
      | none => simp
      | some active => simp
  | always =>
      refine iff_of_true ?_ trivial
      simp only [intervalOutcome, reduceCtorEq, or_self, if_false]
      cases hactive : activeOverride override start with
      | none =>
          rw [activeOverride] at hactive
          rw [hactive, holdsIn_of_inactive hactive]
          exact namesLeast_start (fun _ h => h.1) ⟨le_refl _, hlt, rfl⟩
      | some active =>
          obtain ⟨rfl, hbefore⟩ := Option.filter_eq_some_iff.mp hactive
          rw [activeOverride] at hactive
          rw [decide_eq_true_eq] at hbefore
          rw [hactive]
          simp only
          cases hkind : active.kind with
          | keepAvailable => exact namesLeast_of_kept (by simp) hkind hbefore hlt
          | suspendSchedule =>
              rw [holdsIn_of_suspended hkind hbefore, max_eq_right hbefore.le,
                findRequiredAt_eq (by simp) _ (by simp)]
              exact namesLeast_always _ _
  | scheduled schedule =>
      simp only [intervalOutcome, ScanCondition, reduceCtorEq, or_self, if_false]
      cases hactive : activeOverride override start with
      | none =>
          rw [activeOverride] at hactive
          rw [hactive, holdsIn_of_inactive hactive, findRequiredAt_eq (by simp) _ (by simp)]
          exact namesLeast_scheduled_iff _ _ _ _
      | some active =>
          obtain ⟨rfl, hbefore⟩ := Option.filter_eq_some_iff.mp hactive
          rw [activeOverride] at hactive
          rw [decide_eq_true_eq] at hbefore
          rw [hactive]
          simp only
          cases hkind : active.kind with
          | keepAvailable =>
              exact iff_of_true (namesLeast_of_kept (by simp) hkind hbefore hlt) (Or.inl rfl)
          | suspendSchedule =>
              rw [holdsIn_of_suspended hkind hbefore, max_eq_right hbefore.le,
                findRequiredAt_eq (by simp) _ (by simp)]
              simp only [reduceCtorEq, false_or]
              exact namesLeast_scheduled_iff _ _ _ _

/-- An admitted interval is not empty, and its outcome is that of the scan. -/
theorem evaluateRegisteredServiceAvailabilityForInterval_eq_ok {serviceId : String}
    {policy : ServiceAvailabilityPolicy} {startsAt endsAt : String}
    {result : RegisteredServiceAvailabilityInterval}
    (h : evaluateRegisteredServiceAvailabilityForInterval zone serviceId policy override startsAt
      endsAt = .ok result) :
    result.startsAt.ms < result.endsAt.ms ∧
      result.outcome =
        intervalOutcome zone policy override result.startsAt.ms result.endsAt.ms := by
  unfold evaluateRegisteredServiceAvailabilityForInterval at h
  split at h
  · cases h
  split at h
  · next starts ends _ _ =>
      split at h
      · cases h
      · next hlength =>
          obtain rfl := Except.ok.inj h
          push Not at hlength
          exact ⟨hlength.1, rfl⟩
  · cases h

/-- **When the answer about an interval is right.**  Under a fixed offset the scan
and the evaluation at single instants agree exactly when no manual service is
kept available and the scan sees the first window of the schedule. -/
theorem interval_agrees_iff {serviceId : String} {policy : ServiceAvailabilityPolicy}
    {startsAt endsAt : String} {result : RegisteredServiceAvailabilityInterval}
    (h : evaluateRegisteredServiceAvailabilityForInterval (fixedOffset offset) serviceId policy
      override startsAt endsAt = .ok result) :
    Agrees (fixedOffset offset) policy override result ↔
      ScanCondition offset policy override result.startsAt.ms result.endsAt.ms := by
  obtain ⟨hlt, houtcome⟩ := evaluateRegisteredServiceAvailabilityForInterval_eq_ok h
  rw [Agrees, houtcome]
  exact intervalOutcome_agrees_iff policy hlt

end Outcome

/-- Mondays from 08:00 to 10:00. -/
def mondayMorning : WeeklyAvailabilitySchedule where
  windows := [⟨.monday, 480, 600, by decide⟩]
  count := by decide
  ordered := by decide

/-- From 07:59:30 to 08:00:20 local time on a Monday, three hours behind UTC. -/
def beforeOpening : RegisteredServiceAvailabilityInterval where
  serviceId := "atlas-web"
  startsAt := ⟨1767610770000, by decide⟩
  endsAt := ⟨1767610820000, by decide⟩
  outcome := .notRequired
  transitions := [⟨.becameAvailable, 1767610800000⟩]

/-- The window opens in the interval, but between the first visited point and the end. -/
theorem interval_agrees_beforeOpening :
    evaluateRegisteredServiceAvailabilityForInterval (fixedOffset (-10800000)) "atlas-web"
        (.scheduled mondayMorning) none "2026-01-05T10:59:30.000Z" "2026-01-05T11:00:20.000Z" =
      .ok beforeOpening ∧
    (Agrees (fixedOffset (-10800000)) (.scheduled mondayMorning) none beforeOpening ↔
      ScanCondition (-10800000) (.scheduled mondayMorning) none 1767610770000 1767610820000) := by
  have h : evaluateRegisteredServiceAvailabilityForInterval (fixedOffset (-10800000)) "atlas-web"
      (.scheduled mondayMorning) none "2026-01-05T10:59:30.000Z" "2026-01-05T11:00:20.000Z" =
      .ok beforeOpening := by rfl
  exact ⟨h, interval_agrees_iff h⟩

/-- The interval is reported as not required, yet the service is expected to be
available at 08:00:00. -/
theorem interval_disagrees_beforeOpening :
    evaluateRegisteredServiceAvailabilityForInterval (fixedOffset (-10800000)) "atlas-web"
        (.scheduled mondayMorning) none "2026-01-05T10:59:30.000Z" "2026-01-05T11:00:20.000Z" =
      .ok beforeOpening ∧
    ¬ Agrees (fixedOffset (-10800000)) (.scheduled mondayMorning) none beforeOpening := by
  refine ⟨by rfl, fun hempty => ?_⟩
  have hopen : (1767610800000 : Int) ∈ holdsIn (availableAt (fixedOffset (-10800000))
      (.scheduled mondayMorning) none) beforeOpening.startsAt.ms beforeOpening.endsAt.ms :=
    ⟨by decide, by decide, by decide⟩
  have hnone : holdsIn (availableAt (fixedOffset (-10800000)) (.scheduled mondayMorning) none)
      beforeOpening.startsAt.ms beforeOpening.endsAt.ms = ∅ := hempty
  rw [hnone] at hopen
  exact hopen

end AtlasManager.Service
