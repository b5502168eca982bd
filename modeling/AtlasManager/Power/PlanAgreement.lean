import AtlasManager.Power.PowerPlan
import AtlasManager.Scheduling.Transitions

/-!
# AtlasManager.Power.PlanAgreement

Three searches look for the next shutdown of a weekly schedule: the evaluation of
the policy, the occurrences of an interval, and the confirmation of an occurrence.

* `exists_nextChanges` -- a machine that operates stops within a day and starts
  again within a week;
* `plans_agree` -- the three searches find the same occurrences;
* `intervals_split` -- an interval can be cut without losing or repeating a
  shutdown or a change of availability.
-/

namespace AtlasManager.Power

open AtlasManager.Lib AtlasManager.Scheduling

/-- Seven days, in milliseconds. -/
def week : Int := 7 * msPerDay

/-- The time zone of a number of minutes ahead of UTC. -/
def utcOffset (minutes : Int) : Zone := fixedOffset (60000 * minutes)

/-! ## The week of a schedule -/

section Week

variable {offset : Int} {schedule : MachineWeeklyOperatingSchedule}

/-- The schedule is the same a week later. -/
theorem isOperating_week (x : Int) :
    isOperating (utcOffset offset) schedule (x + week) =
      isOperating (utcOffset offset) schedule x := by
  have hlocal : utcOffset offset (x + week) = utcOffset offset x := by
    simp only [utcOffset, fixedOffset, week, msPerDay, LocalMinute.mk.injEq, Fin.mk.injEq]
    constructor
    · have hday : (x + 7 * 86400000 + 60000 * offset) / 60000 / 1440 + 3 =
          (x + 60000 * offset) / 60000 / 1440 + 3 + 7 := by omega
      rw [weekdayOfDay, weekdayOfDay, hday, Int.add_emod_right]
    · omega
  rw [isOperating, hlocal, isOperating]

/-- It only changes at whole minutes. -/
theorem isOperating_minute {x y : Int} (h : x / 60000 = y / 60000) :
    isOperating (utcOffset offset) schedule x = isOperating (utcOffset offset) schedule y := by
  rw [isOperating, isOperating, utcOffset,
    fixedOffset_sameMinute (show (x + 60000 * offset) / 60000 = (y + 60000 * offset) / 60000 by
      omega)]

/-- No window contains the last minute of a day. -/
theorem exists_not_operating (x : Int) : ∃ k : Nat, k < 1440 ∧
    isOperating (utcOffset offset) schedule (x + 60000 * k) = false := by
  refine ⟨(1439 - (x + 60000 * offset) / 60000 % 1440).toNat, by omega, ?_⟩
  rw [isOperating, isInsideWindow, List.any_eq_false]
  intro window hwindow hinside
  simp only [decide_eq_true_eq] at hinside
  obtain ⟨-, -, hbefore⟩ := hinside
  have hlast := window.finish.isLt
  have htime : (utcOffset offset
      (x + 60000 * ((1439 - (x + 60000 * offset) / 60000 % 1440).toNat : Int))).time.val =
      1439 := by
    simp only [utcOffset, fixedOffset]
    omega
  rw [Fin.lt_def, htime] at hbefore
  omega

/-- When the machine stops after an instant at which it operates, and when it
starts again. -/
structure NextChanges (operatingAt : Int → Bool) (t stop start : Int) : Prop where
  stopMinute : stop % 60000 = 0
  startMinute : start % 60000 = 0
  after : t < stop
  ordered : stop < start
  within : start ≤ t / 60000 * 60000 + week
  operates : ∀ x, x % 60000 = 0 → t / 60000 * 60000 ≤ x → x < stop → operatingAt x = true
  stops : operatingAt stop = false
  rests : ∀ x, x % 60000 = 0 → stop ≤ x → x < start → operatingAt x = false
  starts : operatingAt start = true

/-- What lasts whole minutes, comes again every week and is not always so, ends and
begins again in a week. -/
theorem exists_nextChanges_of_week {operatingAt : Int → Bool} {t : Int}
    (hweekly : ∀ x, operatingAt (x + week) = operatingAt x)
    (hminute : ∀ x y, x / 60000 = y / 60000 → operatingAt x = operatingAt y)
    (hnot : ∃ k : Nat, k < 10080 ∧ operatingAt (t / 60000 * 60000 + 60000 * k) = false)
    (h : operatingAt t = true) : ∃ stop start, NextChanges operatingAt t stop start := by
  set floor := t / 60000 * 60000 with hfloor
  have hfloorOperates : operatingAt floor = true := by
    rw [hminute floor t (by omega)]
    exact h
  have hstops : ∃ k : Nat, operatingAt (floor + 60000 * k) = false := hnot.imp fun _ => And.right
  obtain ⟨bound, hbound, hboundStops⟩ := hnot
  let k := Nat.find hstops
  have hk : operatingAt (floor + 60000 * k) = false := Nat.find_spec hstops
  have hkBound : k ≤ bound := Nat.find_min' hstops hboundStops
  have hkPos : 1 ≤ k := by
    by_contra hzero
    have hk0 : (k : Int) = 0 := by omega
    rw [hk0, mul_zero, add_zero, hfloorOperates] at hk
    contradiction
  have hweek : operatingAt (floor + 60000 * k + 60000 * ((10080 - k : Nat) : Int)) = true := by
    rw [show floor + 60000 * (k : Int) + 60000 * ((10080 - k : Nat) : Int) = floor + week by
      unfold week msPerDay; omega, hweekly]
    exact hfloorOperates
  have hstarts : ∃ j : Nat, operatingAt (floor + 60000 * k + 60000 * j) = true := ⟨_, hweek⟩
  let j := Nat.find hstarts
  have hj : operatingAt (floor + 60000 * k + 60000 * j) = true := Nat.find_spec hstarts
  have hjBound : j ≤ 10080 - k := Nat.find_min' hstarts hweek
  have hjPos : 1 ≤ j := by
    by_contra hzero
    have hj0 : (j : Int) = 0 := by omega
    rw [hj0, mul_zero, add_zero, hk] at hj
    contradiction
  refine ⟨floor + 60000 * k, floor + 60000 * k + 60000 * j, by omega, by omega, by omega,
    by omega, by unfold week msPerDay; omega, ?_, hk, ?_, hj⟩
  · intro x hgrid hfrom hlt
    obtain ⟨i, rfl⟩ : ∃ i : Nat, x = floor + 60000 * i := ⟨((x - floor) / 60000).toNat, by omega⟩
    have hnot := Nat.find_min hstops (show i < k by omega)
    simpa using hnot
  · intro x hgrid hfrom hlt
    obtain ⟨i, rfl⟩ : ∃ i : Nat, x = floor + 60000 * k + 60000 * i :=
      ⟨((x - (floor + 60000 * k)) / 60000).toNat, by omega⟩
    have hnot := Nat.find_min hstarts (show i < j by omega)
    simpa using hnot

/-- **The next changes**: a machine that operates stops and starts again in a week. -/
theorem exists_nextChanges {t : Int}
    (h : isOperating (utcOffset offset) schedule t = true) :
    ∃ stop start, NextChanges (isOperating (utcOffset offset) schedule) t stop start := by
  obtain ⟨k, hk, hnot⟩ := @exists_not_operating offset schedule (t / 60000 * 60000)
  exact exists_nextChanges_of_week isOperating_week (fun _ _ => isOperating_minute)
    ⟨k, by omega, hnot⟩ h

end Week

/-! ## The evaluation and the interval -/

section Searches

variable {zone : Zone} {schedule : MachineWeeklyOperatingSchedule} {t : Int} {stop start : Int}

/-- The wake of the next shutdown is the next start. -/
theorem NextChanges.findNextOperatingStart
    (h : NextChanges (isOperating zone schedule) t stop start) :
    findNextOperatingStart zone schedule stop (stop + horizon) = some start := by
  have hstop := h.stopMinute
  have hstart := h.startMinute
  have hordered := h.ordered
  have hwithin := h.within
  have hafter := h.after
  refine find?_minutesUpTo.mpr ⟨mem_minutesUpTo.mpr ?_, ?_, fun y hy hstarts => ?_⟩
  · unfold week msPerDay at hwithin
    unfold horizon
    omega
  · rw [startsOperating, h.starts, h.rests (start - 60000) (by omega) (by omega) (by omega)]
    rfl
  · rw [mem_minutesUpTo] at hy
    by_contra hlt
    rw [startsOperating, h.rests y (by omega) (by omega) (by omega), Bool.and_false] at hstarts
    contradiction

/-- The first occurrence of an interval is the next shutdown. -/
theorem NextChanges.filter_stopsOperating
    (h : NextChanges (isOperating zone schedule) t stop start) {last : Int} (hlast : stop ≤ last) :
    ∃ later, (minutesUpTo (t / 60000 * 60000 + 60000) last).filter (stopsOperating zone schedule) =
      stop :: later := by
  have hgrid := h.stopMinute
  have hafter := h.after
  have hmem : stop ∈ minutesUpTo (t / 60000 * 60000 + 60000) last := by
    rw [mem_minutesUpTo]
    omega
  have hnone : (minutesUpTo (t / 60000 * 60000 + 60000) (stop - 1)).filter
      (stopsOperating zone schedule) = [] := by
    rw [List.filter_eq_nil_iff]
    intro m hm hstops
    rw [mem_minutesUpTo] at hm
    rw [stopsOperating, h.operates m (by omega) (by omega) (by omega), Bool.not_true,
      Bool.and_false] at hstops
    contradiction
  have hstops : stopsOperating zone schedule stop = true := by
    rw [stopsOperating, h.stops, h.operates (stop - 60000) (by omega) (by omega) (by omega)]
    rfl
  rw [minutesUpTo_split hmem, List.filter_append, hnone, List.nil_append, List.filter_cons,
    if_pos hstops]
  exact ⟨_, rfl⟩

theorem evaluateScheduledPolicy_operating {evaluatedAt first second : Timestamp}
    (hoperating : isOperating zone schedule evaluatedAt.ms = true)
    (hsearch : findNextTransitions (isOperating zone schedule) true []
      (minutesUpTo (evaluatedAt.ms / 60000 * 60000 + 60000) (evaluatedAt.ms + horizon)) =
        .ok [first, second]) :
    evaluateScheduledPolicy zone schedule evaluatedAt =
      checkedPlan evaluatedAt .operating (.planned first) (.planned second) := by
  rw [evaluateScheduledPolicy, hoperating, hsearch]
  rfl

theorem evaluateMachinePowerPlan_scheduled (evaluatedAt : Timestamp) :
    evaluateMachinePowerPlan zone (.scheduled schedule) evaluatedAt.text =
      evaluateScheduledPolicy zone schedule evaluatedAt := by
  rw [evaluateMachinePowerPlan, Timestamp.ofText?_text]

/-- The search for the next transitions finds the next changes. -/
theorem NextChanges.search_eq {operatingAt : Int → Bool} {t shutdown wake : Timestamp}
    (h : NextChanges operatingAt t.ms shutdown.ms wake.ms) :
    findNextTransitions operatingAt true []
      (minutesUpTo (t.ms / 60000 * 60000 + 60000) (t.ms + horizon)) = .ok [shutdown, wake] := by
  have hshutdown := h.stopMinute
  have hwake := h.startMinute
  have hafter := h.after
  have hordered := h.ordered
  have hwithin := h.within
  unfold week msPerDay at hwithin
  set first := t.ms / 60000 * 60000 + 60000 with hfirst
  set last := t.ms + horizon with hlast
  have hrange : ∀ m, t.ms ≤ m → m ≤ wake.ms → (Timestamp.ofMs? m).isSome :=
    fun m hle hge => Option.isSome_iff_exists.mpr (Timestamp.ofMs?_of_between hle hge)
  have hsplit : minutesUpTo first last = minutesUpTo first (shutdown.ms - 1) ++ shutdown.ms ::
      (minutesUpTo (shutdown.ms + 60000) (wake.ms - 1) ++ wake.ms ::
        minutesUpTo (wake.ms + 60000) last) := by
    have hlastHorizon : last = t.ms + 8 * 24 * 60 * 60000 := hlast
    rw [minutesUpTo_split (show shutdown.ms ∈ minutesUpTo first last by
        rw [mem_minutesUpTo]; omega),
      ← minutesUpTo_split (show wake.ms ∈ minutesUpTo (shutdown.ms + 60000) last by
        rw [mem_minutesUpTo]; omega)]
  rw [hsplit, findNextTransitions_skip, findNextTransitions_change, h.stops]
  · rw [if_neg (by simp), findNextTransitions_skip, findNextTransitions_change]
    · rfl
    · rw [h.starts]
      decide
    · intro m hm
      rw [mem_minutesUpTo] at hm
      exact h.rests m (by omega) (by omega) (by omega)
    · intro m hm
      rw [mem_minutesUpTo] at hm
      exact hrange m (by omega) (by omega)
  · rw [h.stops]
    decide
  · intro m hm
    rw [mem_minutesUpTo] at hm
    exact h.operates m (by omega) (by omega) (by omega)
  · intro m hm
    rw [mem_minutesUpTo] at hm
    exact hrange m (by omega) (by omega)

/-- **Evaluation**: it plans the next shutdown and the next wake. -/
theorem NextChanges.evaluate {evaluatedAt shutdown wake : Timestamp}
    (h : NextChanges (isOperating zone schedule) evaluatedAt.ms shutdown.ms wake.ms)
    (hoperating : isOperating zone schedule evaluatedAt.ms = true) :
    ∃ plan, evaluateMachinePowerPlan zone (.scheduled schedule) evaluatedAt.text = .ok plan ∧
      planMachineShutdownOccurrence plan.toJs = .ok (.planned ⟨shutdown, wake, h.ordered⟩) := by
  have hcombination : isTransitionCombination evaluatedAt .operating (.planned shutdown)
      (.planned wake) = true := by
    simp only [isTransitionCombination, decide_eq_true_eq]
    exact ⟨h.after, h.ordered⟩
  have hplan := (evaluateMachinePowerPlan_scheduled evaluatedAt).trans
    ((evaluateScheduledPolicy_operating hoperating h.search_eq).trans
      (checkedPlan_eq hcombination))
  exact ⟨_, hplan, planMachineShutdownOccurrence_operating rfl rfl rfl⟩

theorem occurrenceAt_eq {scheduledFor wake : Timestamp}
    (hfind : findNextOperatingStart zone schedule scheduledFor.ms (scheduledFor.ms + horizon) =
      some wake.ms) (hordered : scheduledFor.ms < wake.ms) :
    occurrenceAt zone schedule scheduledFor.ms = .ok ⟨scheduledFor, wake, hordered⟩ := by
  simp only [occurrenceAt, hfind, Timestamp.ofMs?_ms, hordered, dite_true]
  rfl

end Searches

/-! ## The confirmation -/

/-- Some interval of the policy has the occurrence. -/
def Produces (zone : Zone) (policy : MachineOperatingPolicy)
    (occurrence : MachineShutdownOccurrence) : Prop :=
  ∃ completedThrough tickedThrough occurrences,
    createMachineShutdownOccurrencesForInterval zone policy completedThrough tickedThrough =
      .ok occurrences ∧ occurrence ∈ occurrences

section Confirmation

variable {zone : Zone} {policy : MachineOperatingPolicy} {schedule : MachineWeeklyOperatingSchedule}

theorem not_produces_unscheduled (hpolicy : ∀ schedule, policy ≠ .scheduled schedule)
    (occurrence : MachineShutdownOccurrence) : ¬ Produces zone policy occurrence := by
  rintro ⟨a, b, occurrences, h, hmem⟩
  obtain ⟨hle, hlength, -⟩ := occurrences_cases h
  rw [occurrences_unscheduled_eq hle hlength hpolicy] at h
  cases h
  exact absurd hmem List.not_mem_nil

/-- An occurrence that is produced at all is the only one of its minute. -/
theorem occurrences_minute_of_produces {occurrence : MachineShutdownOccurrence}
    (h : Produces zone (.scheduled schedule) occurrence) :
    ∃ before, Timestamp.ofMs? (occurrence.scheduledFor.ms - 60000) = some before ∧
      createMachineShutdownOccurrencesForInterval zone (.scheduled schedule) before
        occurrence.scheduledFor = .ok [occurrence] := by
  obtain ⟨a, b, occurrences, h, hmem⟩ := h
  obtain ⟨hle, hlength, -⟩ := occurrences_cases h
  rw [occurrences_scheduled_eq hle hlength] at h
  obtain ⟨candidate, hcandidate, hone⟩ := exists_of_mem_forall₂ (forall₂_of_mapM h) hmem
  obtain ⟨hvisited, hstops⟩ := List.mem_filter.mp hcandidate
  rw [mem_minutesUpTo] at hvisited
  obtain ⟨rfl, -⟩ := occurrenceAt_eq_ok hone
  have hrange := a.inRange
  obtain ⟨before, hbefore⟩ := @Timestamp.ofMs?_of_between ⟨-8640000000000000, by decide⟩
    occurrence.scheduledFor (occurrence.scheduledFor.ms - 60000)
    (by dsimp only; omega) (by omega)
  refine ⟨before, hbefore, ?_⟩
  rw [Timestamp.ofMs?_eq_some] at hbefore
  have hfirst : before.ms / 60000 * 60000 + 60000 = occurrence.scheduledFor.ms := by omega
  rw [occurrences_scheduled_eq (by omega) (by unfold horizon; omega), hfirst, minutesUpTo_self,
    List.filter_cons, if_pos hstops, List.filter_nil, List.mapM_cons, hone]
  rfl

/-- **Confirmation**: exactly the occurrences of the policy are confirmed. -/
theorem readConfirmation_iff (input : JsValue) :
    readConfirmation zone policy input = .ok .confirmed ↔
      ∃ occurrence, createMachineShutdownOccurrence input = .ok occurrence ∧
        Produces zone policy occurrence := by
  by_cases hpolicy : ∃ schedule, policy = .scheduled schedule
  · obtain ⟨schedule, rfl⟩ := hpolicy
    rw [readConfirmation]
    cases hinput : createMachineShutdownOccurrence input with
    | error code => simp
    | ok occurrence =>
        simp only [Except.ok.injEq, exists_eq_left']
        constructor
        · intro h
          split at h
          · cases h
          next before hbefore =>
          split at h
          · cases h
          next generated hgenerated =>
          split at h
          · next hsame => exact ⟨_, _, generated, hgenerated, by simp [hsame]⟩
          · cases h
        · intro h
          obtain ⟨before, hbefore, hgenerated⟩ := occurrences_minute_of_produces h
          simp [hbefore, hgenerated]
  · push Not at hpolicy
    have hnot := @not_produces_unscheduled zone _ hpolicy
    cases policy with
    | scheduled schedule => exact absurd rfl (hpolicy schedule)
    | alwaysOn => simp [readConfirmation, hnot]
    | manual => simp [readConfirmation, hnot]

end Confirmation

/-! ## Agreement -/

section Agreement

variable {offset : Int} {schedule : MachineWeeklyOperatingSchedule}

/-- The interval of eight days plans first what the evaluation plans. -/
theorem evaluation_eq_first {t upper : Timestamp} {occurrences : List MachineShutdownOccurrence}
    (hoperating : isOperating (utcOffset offset) schedule t.ms = true)
    (hupper : upper.ms = t.ms + horizon)
    (h : createMachineShutdownOccurrencesForInterval (utcOffset offset) (.scheduled schedule) t
      upper = .ok occurrences) :
    ∃ plan occurrence later,
      evaluateMachinePowerPlan (utcOffset offset) (.scheduled schedule) t.text = .ok plan ∧
      planMachineShutdownOccurrence plan.toJs = .ok (.planned occurrence) ∧
      occurrences = occurrence :: later := by
  obtain ⟨stop, start, hnext⟩ := exists_nextChanges hoperating
  have hordered := hnext.ordered
  have hwithin := hnext.within
  unfold week msPerDay at hwithin
  have hhorizon : horizon = 8 * 24 * 60 * 60000 := rfl
  obtain ⟨later, hfilter⟩ := hnext.filter_stopsOperating (show stop ≤ upper.ms by omega)
  rw [occurrences_scheduled_eq (by omega) (by omega), hfilter] at h
  cases forall₂_of_mapM h with
  | @cons _ occurrence _ rest hone hrest =>
      obtain ⟨rfl, hwake⟩ := occurrenceAt_eq_ok hone
      rw [hnext.findNextOperatingStart, Option.some.injEq] at hwake
      subst hwake
      obtain ⟨plan, hplan, hoccurrence⟩ := hnext.evaluate hoperating
      exact ⟨plan, _, rest, hplan, hoccurrence, rfl⟩

/-- Fifteen days before the last date every occurrence of eight days has its wake. -/
theorem exists_occurrences {t : Timestamp} (ht : t.ms + 15 * msPerDay ≤ 8640000000000000) :
    ∃ upper : Timestamp, upper.ms = t.ms + horizon ∧ ∃ occurrences,
      createMachineShutdownOccurrencesForInterval (utcOffset offset) (.scheduled schedule) t upper =
        .ok occurrences := by
  have hrange := t.inRange
  have hhorizon : horizon = 8 * 24 * 60 * 60000 := rfl
  unfold msPerDay at ht
  refine ⟨⟨t.ms + horizon, by omega⟩, rfl, ?_⟩
  rw [occurrences_scheduled_eq (by dsimp only; omega) (by dsimp only; omega)]
  refine exists_mapM_ok fun candidate hcandidate => ?_
  obtain ⟨hvisited, hstops⟩ := List.mem_filter.mp hcandidate
  rw [mem_minutesUpTo] at hvisited
  simp only [stopsOperating, Bool.and_eq_true, Bool.not_eq_true'] at hstops
  -- the operating time that ends at the candidate is there again a week later
  obtain ⟨stop, start, hnext⟩ := exists_nextChanges hstops.1
  have hstop : stop = candidate := by
    have hgrid := hnext.stopMinute
    have hafter := hnext.after
    by_contra hne
    have hoperates := hnext.operates candidate (by omega) (by omega) (by omega)
    rw [hstops.2] at hoperates
    contradiction
  subst hstop
  have hordered := hnext.ordered
  have hwithin := hnext.within
  unfold week msPerDay at hwithin
  obtain ⟨scheduledFor, hscheduled⟩ := @Timestamp.ofMs?_of_between t
    ⟨8640000000000000, by decide⟩ stop (by omega) (by dsimp only at *; omega)
  obtain ⟨wake, hwake⟩ := @Timestamp.ofMs?_of_between t
    ⟨8640000000000000, by decide⟩ start (by omega) (by dsimp only at *; omega)
  rw [Timestamp.ofMs?_eq_some] at hscheduled hwake
  subst hscheduled hwake
  exact ⟨_, occurrenceAt_eq hnext.findNextOperatingStart hordered⟩

end Agreement

/-- **Agreement** of the three searches under a fixed offset: wherever the interval
of eight days has an answer, which is everywhere but in the last fifteen days of
all dates, its first occurrence is the one that the evaluation plans; and the
confirmed occurrences are those that intervals have. -/
theorem plans_agree (offset : Int) (schedule : MachineWeeklyOperatingSchedule) :
    (∀ t upper : Timestamp, isOperating (utcOffset offset) schedule t.ms = true →
      upper.ms = t.ms + horizon → ∀ occurrences,
      createMachineShutdownOccurrencesForInterval (utcOffset offset) (.scheduled schedule) t upper =
        .ok occurrences →
      ∃ plan occurrence later,
        evaluateMachinePowerPlan (utcOffset offset) (.scheduled schedule) t.text = .ok plan ∧
        planMachineShutdownOccurrence plan.toJs = .ok (.planned occurrence) ∧
        occurrences = occurrence :: later) ∧
    (∀ t : Timestamp, t.ms + 15 * msPerDay ≤ 8640000000000000 →
      ∃ upper : Timestamp, upper.ms = t.ms + horizon ∧ ∃ occurrences,
        createMachineShutdownOccurrencesForInterval (utcOffset offset) (.scheduled schedule) t
          upper = .ok occurrences) ∧
    ∀ input : JsValue,
      readConfirmation (utcOffset offset) (.scheduled schedule) input = .ok .confirmed ↔
        ∃ occurrence, createMachineShutdownOccurrence input = .ok occurrence ∧
          Produces (utcOffset offset) (.scheduled schedule) occurrence :=
  ⟨fun _ _ hoperating hupper _ h => evaluation_eq_first hoperating hupper h,
    fun _ ht => exists_occurrences ht, readConfirmation_iff⟩

/-- The machine operates in the first minute of Friday only. -/
def fridaySchedule : MachineWeeklyOperatingSchedule where
  windows := [{ weekday := .friday, start := 0, finish := 1, ordered := by decide }]
  count := by decide
  ordered := by simp

/-- From its second minute on the last Friday of all dates has no other start. -/
theorem fridaySchedule_not_operating {x : Int} (hx : 8640000000000000 - 86400000 + 60000 ≤ x)
    (hlast : x ≤ 8640000000000000) : isOperating (utcOffset 0) fridaySchedule x = false := by
  rw [isOperating, isInsideWindow, fridaySchedule, List.any_cons, List.any_nil, Bool.or_false,
    decide_eq_false_iff_not]
  rintro ⟨hfriday, -, htime⟩
  simp only [utcOffset, fixedOffset, Fin.lt_def] at hfriday htime
  have hday : (x + 60000 * 0) / 60000 / 1440 = 99999999 ∨
      (x + 60000 * 0) / 60000 / 1440 = 100000000 := by omega
  rcases hday with hday | hday
  · have hminute : ((1 : Fin 1440) : Nat) = 1 := rfl
    omega
  · rw [hday] at hfriday
    revert hfriday
    decide

/-- In the last fifteen days the interval can have no answer where the evaluation
plans an occurrence: a later occurrence would wake after the last date. -/
theorem plans_disagree_at_the_last_dates : ∃ (t upper : Timestamp) (plan : MachinePowerPlan)
    (occurrence : MachineShutdownOccurrence),
    isOperating (utcOffset 0) fridaySchedule t.ms = true ∧ upper.ms = t.ms + horizon ∧
    evaluateMachinePowerPlan (utcOffset 0) (.scheduled fridaySchedule) t.text = .ok plan ∧
    planMachineShutdownOccurrence plan.toJs = .ok (.planned occurrence) ∧
    ∀ occurrences, createMachineShutdownOccurrencesForInterval (utcOffset 0)
      (.scheduled fridaySchedule) t upper ≠ .ok occurrences := by
  let t : Timestamp := ⟨8640000000000000 - 8 * 86400000, by decide⟩
  let upper : Timestamp := ⟨8640000000000000, by decide⟩
  have hoperating : isOperating (utcOffset 0) fridaySchedule t.ms = true := by decide
  obtain ⟨stop, start, hnext⟩ := exists_nextChanges hoperating
  have hafter := hnext.after
  have hordered := hnext.ordered
  have hwithin := hnext.within
  have ht : t.ms = 8640000000000000 - 8 * 86400000 := rfl
  have hweek : week = 7 * 86400000 := rfl
  obtain ⟨shutdown, hshutdown⟩ := @Timestamp.ofMs?_of_between t upper stop
    (by omega) (by dsimp only [upper]; omega)
  obtain ⟨wake, hwake⟩ := @Timestamp.ofMs?_of_between t upper start
    (by omega) (by dsimp only [upper]; omega)
  rw [Timestamp.ofMs?_eq_some] at hshutdown hwake
  subst hshutdown hwake
  obtain ⟨plan, hplan, hoccurrence⟩ := hnext.evaluate hoperating
  refine ⟨t, upper, plan, _, hoperating, by decide, hplan, hoccurrence, fun occurrences h => ?_⟩
  rw [occurrences_scheduled_eq (by decide) (by decide)] at h
  -- the shutdown of the second Friday
  have hmem : 8640000000000000 - 86400000 + 60000 ∈
      (minutesUpTo (t.ms / 60000 * 60000 + 60000) upper.ms).filter
        (stopsOperating (utcOffset 0) fridaySchedule) :=
    List.mem_filter.mpr ⟨mem_minutesUpTo.mpr (by decide), by decide⟩
  obtain ⟨occurrence, -, hone⟩ := exists_of_mem_forall₂ (forall₂_of_mapM h).flip hmem
  obtain ⟨hvisited, hstarts, -⟩ := find?_minutesUpTo.mp (occurrenceAt_eq_ok hone).2
  rw [mem_minutesUpTo] at hvisited
  rw [startsOperating, fridaySchedule_not_operating (by omega)
    occurrence.wakeScheduledFor.inRange.2, Bool.and_false] at hstarts
  exact Bool.false_ne_true hstarts

/-! ## Cutting intervals -/

/-- **Cutting**: occurrences of an admitted interval can be cut at any instant,
transitions at any minute inside; and transitions are the minutes at which the
expectation changes, to and fro. -/
theorem intervals_split (zone : Zone) :
    (∀ (policy : MachineOperatingPolicy) (a b c : Timestamp), a.ms ≤ b.ms → b.ms ≤ c.ms →
      c.ms - a.ms ≤ horizon →
      createMachineShutdownOccurrencesForInterval zone policy a c = (do
        let before ← createMachineShutdownOccurrencesForInterval zone policy a b
        let after ← createMachineShutdownOccurrencesForInterval zone policy b c
        return before ++ after)) ∧
    ∀ (policy : ServiceAvailabilityPolicy) (a b c : Int), a < b → b < c →
      a % 60000 = 0 → b % 60000 = 0 → c % 60000 = 0 → c - a ≤ maximumInterval →
      ∃ before after,
        calculateServiceAvailabilityPolicyTransitions zone policy a b = .ok before ∧
        calculateServiceAvailabilityPolicyTransitions zone policy b c = .ok after ∧
        calculateServiceAvailabilityPolicyTransitions zone policy a c = .ok (before ++ after) ∧
        (before ++ after = (minutesUpTo (a + 60000) c).filterMap
          (changeAt (evaluateServiceAvailabilityPolicy zone policy))) ∧
        ((before ++ after).map (·.kind)).IsChain (· ≠ ·) := by
  refine ⟨fun policy a b c hab hbc hlength => occurrences_append zone policy hab hbc hlength, ?_⟩
  intro policy a b c hab hbc ha hb hc hlength
  have hwhole := @transitions_eq zone policy _ _
    (validateInterval_ok.mpr ⟨hab.trans hbc, ha, hc, hlength⟩)
  have happend := @transitionsBetween_append zone policy _ _ _ hab.le hbc.le
    (by omega)
  rw [← happend] at hwhole
  exact ⟨_, _, transitions_eq (validateInterval_ok.mpr ⟨hab, ha, hb, by omega⟩),
    transitions_eq (validateInterval_ok.mpr ⟨hbc, hb, hc, by omega⟩), hwhole, happend,
    transitions_alternate hwhole⟩

/-- An empty part, or one that ends inside a minute, has no transitions to give. -/
theorem transitions_refused_in_parts :
    ¬ ∀ (zone : Zone) (policy : ServiceAvailabilityPolicy) (a b c : Int), a ≤ b → b ≤ c →
      c - a ≤ maximumInterval →
      calculateServiceAvailabilityPolicyTransitions zone policy a c = (do
        let before ← calculateServiceAvailabilityPolicyTransitions zone policy a b
        let after ← calculateServiceAvailabilityPolicyTransitions zone policy b c
        return before ++ after) := by
  intro hclaim
  have hsplit := hclaim (utcOffset 0) .always 0 0 60000 (by decide) (by decide) (by decide)
  have hwhole : validateInterval 0 60000 = .ok () := by decide
  have hempty : validateInterval 0 0 = .error .invalidTransitionInterval := by decide
  simp only [calculateServiceAvailabilityPolicyTransitions, hwhole, hempty] at hsplit
  cases hsplit

end AtlasManager.Power
