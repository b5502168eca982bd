import AtlasManager.Power.PlanAgreement

/-!
# AtlasManager.Power.PlanEvaluation

What the evaluation of a weekly schedule reports: the state at the instant, and
the next minutes at which it changes.

* `exists_isOperating` -- every schedule operates at some minute of a week;
* `findNextTransitions_not` -- the search is the same for operating and for resting;
* `evaluation_least_changes` -- the search is never exhausted, and what is
  reported are the least changes after the instant.
-/

namespace AtlasManager.Power

open AtlasManager.Lib AtlasManager.Scheduling

/-! ## Every week has both states -/

theorem weekdayOfDay_of_order {weekday : ServiceScheduleWeekday} {day : Int}
    (h : (day + 3) % 7 = weekday.order) : weekdayOfDay day = weekday := by
  unfold weekdayOfDay
  rw [h]
  cases weekday <;> rfl

section Week

variable {offset : Int} {schedule : MachineWeeklyOperatingSchedule}

/-- A schedule operates at the first minute of its first window. -/
theorem exists_isOperating (x : Int) : ∃ k : Nat, k < 10080 ∧
    isOperating (utcOffset offset) schedule (x + 60000 * k) = true := by
  obtain ⟨window, hwindow⟩ : ∃ window, window ∈ schedule.windows :=
    List.exists_mem_of_length_pos schedule.count.1
  have horder : window.weekday.order < 7 := by cases window.weekday <;> decide
  have hstart := window.start.isLt
  -- minutes of the week, from Monday on
  set now := (x + 60000 * offset) / 60000 + 4320 with hnow
  set target : Int := 1440 * window.weekday.order + window.start.val with htarget
  refine ⟨((target - now) % 10080).toNat, by omega, ?_⟩
  have hminute : (x + 60000 * (((target - now) % 10080).toNat : Int) + 60000 * offset) / 60000 + 4320 =
      now + (target - now) % 10080 := by omega
  rw [isOperating, isInsideWindow, List.any_eq_true]
  refine ⟨window, hwindow, ?_⟩
  have hweekday : (utcOffset offset (x + 60000 * (((target - now) % 10080).toNat : Int))).weekday =
      window.weekday := weekdayOfDay_of_order (by omega)
  have htime : (utcOffset offset (x + 60000 * (((target - now) % 10080).toNat : Int))).time =
      window.start := by
    refine Fin.ext ?_
    simp only [utcOffset, fixedOffset]
    omega
  rw [hweekday, htime]
  simpa using window.ordered

/-- A machine that rests starts and stops again in a week. -/
theorem exists_nextChanges_rest {t : Int} (h : isOperating (utcOffset offset) schedule t = false) :
    ∃ start stop, NextChanges (fun x => !isOperating (utcOffset offset) schedule x) t start stop := by
  obtain ⟨k, hk, hoperates⟩ := @exists_isOperating offset schedule (t / 60000 * 60000)
  refine exists_nextChanges_of_week ?_ ?_ ⟨k, hk, by rw [hoperates]; rfl⟩ (by rw [h]; rfl)
  · intro x
    rw [isOperating_week]
  · intro x y hxy
    rw [isOperating_minute hxy]

end Week

/-! ## The search -/

section Search

variable {operatingAt : Int → Bool}

/-- Only the changes of the state matter. -/
theorem findNextTransitions_not (previous : Bool) (transitions : List Timestamp)
    (candidates : List Int) :
    findNextTransitions (fun x => !operatingAt x) (!previous) transitions candidates =
      findNextTransitions operatingAt previous transitions candidates := by
  induction candidates generalizing previous transitions with
  | nil => rfl
  | cons candidate candidates ih =>
      have hchange : (!operatingAt candidate) ≠ (!previous) ↔ operatingAt candidate ≠ previous := by
        rw [ne_eq, ne_eq, Bool.not_inj_iff]
      simp only [findNextTransitions, hchange, ih]

/-- A date that is out of range is the only error. -/
theorem findNextTransitions_error {previous : Bool} {transitions : List Timestamp}
    {candidates : List Int} {e : MachinePowerPlanEvaluationError}
    (h : findNextTransitions operatingAt previous transitions candidates = .error e) :
    e = .invalidDate := by
  induction candidates generalizing previous transitions with
  | nil => simp [findNextTransitions] at h
  | cons candidate candidates ih =>
      rw [findNextTransitions] at h
      cases hinstant : Timestamp.ofMs? candidate with
      | none =>
          rw [hinstant] at h
          exact (Except.error.inj h).symm
      | some instant =>
          simp only [hinstant] at h
          split at h
          · split at h
            · cases h
            · exact ih h
          · exact ih h

/-- A search with one transition sees all candidates, or the state change once more. -/
theorem findNextTransitions_second {previous : Bool} {first : Timestamp} {candidates : List Int}
    {found : List Timestamp}
    (h : findNextTransitions operatingAt previous [first] candidates = .ok found) :
    (∀ m ∈ candidates, (Timestamp.ofMs? m).isSome = true) ∨
      ∃ y ∈ candidates, (Timestamp.ofMs? y).isSome = true ∧ operatingAt y ≠ previous := by
  induction candidates with
  | nil => simp
  | cons candidate candidates ih =>
      rw [findNextTransitions] at h
      cases hinstant : Timestamp.ofMs? candidate with
      | none => simp [hinstant] at h
      | some instant =>
          simp only [hinstant] at h
          by_cases hchange : operatingAt candidate ≠ previous
          · exact .inr ⟨candidate, List.mem_cons_self, by rw [hinstant]; rfl, hchange⟩
          · rw [if_neg hchange] at h
            rcases ih h with hall | ⟨y, hy, hrest⟩
            · exact .inl (List.forall_mem_cons.mpr ⟨by rw [hinstant]; rfl, hall⟩)
            · exact .inr ⟨y, List.mem_cons_of_mem _ hy, hrest⟩

/-- A search that ends without an error has seen all candidates, or the state change twice. -/
theorem findNextTransitions_ok {previous : Bool} {candidates : List Int}
    {found : List Timestamp} (hsorted : candidates.Pairwise (· < ·))
    (h : findNextTransitions operatingAt previous [] candidates = .ok found) :
    (∀ m ∈ candidates, (Timestamp.ofMs? m).isSome = true) ∨
      ∃ x ∈ candidates, operatingAt x ≠ previous ∧ ∃ y ∈ candidates, x < y ∧
        (Timestamp.ofMs? y).isSome = true ∧ operatingAt y ≠ operatingAt x := by
  induction candidates with
  | nil => simp
  | cons candidate candidates ih =>
      obtain ⟨hless, hsorted⟩ := List.pairwise_cons.mp hsorted
      rw [findNextTransitions] at h
      cases hinstant : Timestamp.ofMs? candidate with
      | none => simp [hinstant] at h
      | some instant =>
          simp only [hinstant] at h
          by_cases hchange : operatingAt candidate ≠ previous
          · rw [if_pos hchange, if_neg (by simp)] at h
            rcases findNextTransitions_second h with hall | ⟨y, hy, hrange, hback⟩
            · exact .inl (List.forall_mem_cons.mpr ⟨by rw [hinstant]; rfl, hall⟩)
            · exact .inr ⟨candidate, List.mem_cons_self, hchange, y, List.mem_cons_of_mem _ hy,
                hless y hy, hrange, hback⟩
          · rw [if_neg hchange] at h
            rcases ih hsorted h with hall | ⟨x, hx, hxchange, y, hy, hrest⟩
            · exact .inl (List.forall_mem_cons.mpr ⟨by rw [hinstant]; rfl, hall⟩)
            · exact .inr ⟨x, List.mem_cons_of_mem _ hx, hxchange, y, List.mem_cons_of_mem _ hy, hrest⟩

/-- Where the second change is no date, the search finds no end. -/
theorem NextChanges.search_invalidDate {t : Timestamp} {stop start : Int}
    (h : NextChanges operatingAt t.ms stop start) (hstart : 8640000000000000 < start) :
    findNextTransitions operatingAt true []
      (minutesUpTo (t.ms / 60000 * 60000 + 60000) (t.ms + horizon)) = .error .invalidDate := by
  have hstopGrid := h.stopMinute
  have hstartGrid := h.startMinute
  have hafter := h.after
  have hordered := h.ordered
  have hwithin := h.within
  unfold week msPerDay at hwithin
  have hhorizon : horizon = 8 * 24 * 60 * 60000 := rfl
  cases hsearch : findNextTransitions operatingAt true []
      (minutesUpTo (t.ms / 60000 * 60000 + 60000) (t.ms + horizon)) with
  | error e => rw [findNextTransitions_error hsearch]
  | ok found =>
      -- a candidate as late as the second change was a date
      obtain ⟨y, hlate, hrange⟩ : ∃ y, start ≤ y ∧ (Timestamp.ofMs? y).isSome = true := by
        rcases findNextTransitions_ok (pairwise_minutesUpTo _ _) hsearch with
          hall | ⟨x, hx, hstops, y, hy, hless, hrange, hstarts⟩
        · exact ⟨start, le_refl _, hall start (mem_minutesUpTo.mpr (by omega))⟩
        · rw [mem_minutesUpTo] at hx hy
          have hxStop : stop ≤ x := by
            by_contra hearly
            exact hstops (h.operates x (by omega) (by omega) (by omega))
          refine ⟨y, ?_, hrange⟩
          by_contra hearly
          have hxRests := h.rests x (by omega) hxStop (by omega)
          have hyRests := h.rests y (by omega) (by omega) (by omega)
          rw [hxRests, hyRests] at hstarts
          exact hstarts rfl
      obtain ⟨instant, hinstant⟩ := Option.isSome_iff_exists.mp hrange
      rw [Timestamp.ofMs?_eq_some] at hinstant
      have hlast := instant.inRange.2
      omega

/-- The first change is the least minute at which the state ends. -/
theorem NextChanges.isLeast_stop {t stop start : Int} (h : NextChanges operatingAt t stop start) :
    IsLeast {m : Int | t < m ∧ m % 60000 = 0 ∧ operatingAt (m - 60000) = true ∧ operatingAt m = false}
      stop := by
  have hgrid := h.stopMinute
  have hafter := h.after
  refine ⟨⟨hafter, hgrid, h.operates _ (by omega) (by omega) (by omega), h.stops⟩, ?_⟩
  rintro m ⟨hm, hmGrid, -, hstops⟩
  by_contra hearly
  rw [h.operates m hmGrid (by omega) (by omega)] at hstops
  cases hstops

/-- The second change is the least minute at which it begins again. -/
theorem NextChanges.isLeast_start {t stop start : Int} (h : NextChanges operatingAt t stop start) :
    IsLeast {m : Int | t < m ∧ m % 60000 = 0 ∧ operatingAt (m - 60000) = false ∧ operatingAt m = true}
      start := by
  have hstopGrid := h.stopMinute
  have hgrid := h.startMinute
  have hafter := h.after
  have hordered := h.ordered
  refine ⟨⟨by omega, hgrid, h.rests _ (by omega) (by omega) (by omega), h.starts⟩, ?_⟩
  rintro m ⟨hm, hmGrid, hbefore, hstarts⟩
  by_contra hearly
  by_cases hlate : stop ≤ m
  · rw [h.rests m hmGrid hlate (by omega)] at hstarts
    cases hstarts
  · rw [h.operates (m - 60000) (by omega) (by omega) (by omega)] at hbefore
    cases hbefore

end Search

/-! ## The evaluation -/

section Evaluation

variable {offset : Int} {schedule : MachineWeeklyOperatingSchedule}

/-- The minutes after an instant at which a time of operation ends. -/
def shutdownsAfter (zone : Zone) (schedule : MachineWeeklyOperatingSchedule) (t : Int) : Set Int :=
  {m | t < m ∧ m % 60000 = 0 ∧ isOperating zone schedule (m - 60000) = true ∧
    isOperating zone schedule m = false}

/-- The minutes after an instant at which a time of operation begins. -/
def wakesAfter (zone : Zone) (schedule : MachineWeeklyOperatingSchedule) (t : Int) : Set Int :=
  {m | t < m ∧ m % 60000 = 0 ∧ isOperating zone schedule (m - 60000) = false ∧
    isOperating zone schedule m = true}

/-- A plan that says what the schedule does: the state at the instant, and the least
shutdown and wake after it. -/
structure PlansNextChanges (zone : Zone) (schedule : MachineWeeklyOperatingSchedule)
    (t : Timestamp) (plan : MachinePowerPlan) : Prop where
  evaluatedAt : plan.evaluatedAt = t
  state : plan.expectation = if isOperating zone schedule t.ms then .operating else .offline
  shutdown : ∃ shutdown, plan.nextShutdown = .planned shutdown ∧
    IsLeast (shutdownsAfter zone schedule t.ms) shutdown.ms
  wake : ∃ wake, plan.nextWake = .planned wake ∧ IsLeast (wakesAfter zone schedule t.ms) wake.ms

/-- The next changes are found, unless the second one is no date. -/
theorem NextChanges.search_cases {operatingAt : Int → Bool} {t : Timestamp} {stop start : Int}
    (h : NextChanges operatingAt t.ms stop start) :
    (8640000000000000 < start ∧ findNextTransitions operatingAt true []
      (minutesUpTo (t.ms / 60000 * 60000 + 60000) (t.ms + horizon)) = .error .invalidDate) ∨
    ∃ first second : Timestamp, first.ms = stop ∧ second.ms = start ∧
      findNextTransitions operatingAt true []
        (minutesUpTo (t.ms / 60000 * 60000 + 60000) (t.ms + horizon)) = .ok [first, second] := by
  have hafter := h.after
  have hordered := h.ordered
  have hfirst := t.inRange.1
  by_cases hlate : 8640000000000000 < start
  · exact .inl ⟨hlate, h.search_invalidDate hlate⟩
  · right
    have hsearch := @NextChanges.search_eq operatingAt t ⟨stop, by omega, by omega⟩
      ⟨start, by omega, by omega⟩ h
    exact ⟨_, _, rfl, rfl, hsearch⟩

section Outcome

variable {t : Timestamp}

/-- The evaluation at an instant of operation: the dates are left, or the plan has the
next changes. -/
theorem evaluate_operating (h : isOperating (utcOffset offset) schedule t.ms = true) :
    (8640000000000000 < t.ms + horizon ∧
      evaluateMachinePowerPlan (utcOffset offset) (.scheduled schedule) t.text =
        .error .invalidDate) ∨
    ∃ plan, evaluateMachinePowerPlan (utcOffset offset) (.scheduled schedule) t.text = .ok plan ∧
      PlansNextChanges (utcOffset offset) schedule t plan := by
  obtain ⟨stop, start, hchanges⟩ := exists_nextChanges h
  have hwithin := hchanges.within
  unfold week msPerDay at hwithin
  have hhorizon : horizon = 8 * 24 * 60 * 60000 := rfl
  rw [evaluateMachinePowerPlan_scheduled, evaluateScheduledPolicy, h]
  rcases hchanges.search_cases with ⟨hlate, hsearch⟩ | ⟨shutdown, wake, rfl, rfl, hsearch⟩
  · left
    rw [hsearch]
    exact ⟨by omega, rfl⟩
  · right
    rw [hsearch]
    have hcombination : isTransitionCombination t .operating (.planned shutdown)
        (.planned wake) = true := by
      simp only [isTransitionCombination, decide_eq_true_eq]
      exact ⟨hchanges.after, hchanges.ordered⟩
    refine ⟨_, checkedPlan_eq hcombination, rfl, by rw [h]; rfl, ?_, ?_⟩
    · exact ⟨shutdown, rfl, hchanges.isLeast_stop⟩
    · exact ⟨wake, rfl, hchanges.isLeast_start⟩

/-- The evaluation at an instant of rest. -/
theorem evaluate_offline (h : isOperating (utcOffset offset) schedule t.ms = false) :
    (8640000000000000 < t.ms + horizon ∧
      evaluateMachinePowerPlan (utcOffset offset) (.scheduled schedule) t.text =
        .error .invalidDate) ∨
    ∃ plan, evaluateMachinePowerPlan (utcOffset offset) (.scheduled schedule) t.text = .ok plan ∧
      PlansNextChanges (utcOffset offset) schedule t plan := by
  obtain ⟨start, stop, hchanges⟩ := exists_nextChanges_rest h
  have hwithin := hchanges.within
  unfold week msPerDay at hwithin
  have hhorizon : horizon = 8 * 24 * 60 * 60000 := rfl
  have hsame := @findNextTransitions_not (isOperating (utcOffset offset) schedule) false []
    (minutesUpTo (t.ms / 60000 * 60000 + 60000) (t.ms + horizon))
  rw [evaluateMachinePowerPlan_scheduled, evaluateScheduledPolicy, h]
  rcases hchanges.search_cases with ⟨hlate, hsearch⟩ | ⟨wake, shutdown, rfl, rfl, hsearch⟩
  · left
    rw [← hsame, Bool.not_false, hsearch]
    exact ⟨by omega, rfl⟩
  · right
    rw [← hsame, Bool.not_false, hsearch]
    have hcombination : isTransitionCombination t .offline (.planned shutdown)
        (.planned wake) = true := by
      simp only [isTransitionCombination, decide_eq_true_eq]
      exact ⟨hchanges.after, hchanges.ordered⟩
    refine ⟨_, checkedPlan_eq hcombination, rfl, by rw [h]; rfl, ?_, ?_⟩
    · have hleast := hchanges.isLeast_start
      simp only [Bool.not_eq_eq_eq_not, Bool.not_true, Bool.not_false] at hleast
      exact ⟨shutdown, rfl, hleast⟩
    · have hleast := hchanges.isLeast_stop
      simp only [Bool.not_eq_eq_eq_not, Bool.not_true, Bool.not_false] at hleast
      exact ⟨wake, rfl, hleast⟩

end Outcome

/-- **Evaluation of a schedule**: the search is never exhausted, it makes a plan wherever
the days that it searches are dates, and every plan has the state at the instant and the
least shutdown and wake after it. -/
theorem evaluation_least_changes (offset : Int) (schedule : MachineWeeklyOperatingSchedule)
    (t : Timestamp) :
    evaluateMachinePowerPlan (utcOffset offset) (.scheduled schedule) t.text ≠
      .error .transitionSearchExhausted ∧
    (t.ms + horizon ≤ 8640000000000000 → ∃ plan,
      evaluateMachinePowerPlan (utcOffset offset) (.scheduled schedule) t.text = .ok plan) ∧
    ∀ plan, evaluateMachinePowerPlan (utcOffset offset) (.scheduled schedule) t.text = .ok plan →
      PlansNextChanges (utcOffset offset) schedule t plan := by
  have houtcome : (8640000000000000 < t.ms + horizon ∧
      evaluateMachinePowerPlan (utcOffset offset) (.scheduled schedule) t.text =
        .error .invalidDate) ∨
      ∃ plan, evaluateMachinePowerPlan (utcOffset offset) (.scheduled schedule) t.text =
        .ok plan ∧ PlansNextChanges (utcOffset offset) schedule t plan := by
    cases h : isOperating (utcOffset offset) schedule t.ms with
    | true => exact evaluate_operating h
    | false => exact evaluate_offline h
  rcases houtcome with ⟨hlate, herror⟩ | ⟨plan, hplan, hnext⟩
  · rw [herror]
    refine ⟨by simp, fun hearly => by omega, fun plan hplan => by cases hplan⟩
  · rw [hplan]
    refine ⟨by simp, fun _ => ⟨plan, rfl⟩, fun other hother => ?_⟩
    rw [← Except.ok.inj hother]
    exact hnext

/-- A schedule that operates on Fridays, evaluated at the start of 1970. -/
theorem evaluation_least_changes_friday : ∃ t : Timestamp, t.ms = 0 ∧
    ∃ plan, evaluateMachinePowerPlan (utcOffset 0) (.scheduled fridaySchedule) t.text =
        .ok plan ∧
      PlansNextChanges (utcOffset 0) fridaySchedule t plan := by
  let t : Timestamp := ⟨0, by decide, by decide⟩
  obtain ⟨-, hplan, hnext⟩ := evaluation_least_changes 0 fridaySchedule t
  obtain ⟨plan, hplan⟩ := hplan (by decide)
  exact ⟨t, rfl, plan, hplan, hnext plan hplan⟩

end Evaluation

end AtlasManager.Power
