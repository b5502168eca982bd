import AtlasManager.Scheduling.WeeklySchedule

/-!
# AtlasManager.Power.MachineOperatingPolicy

The weekly schedule of the machine and its operating policy, from values of unknown type.

* `createMachineWeeklyOperatingSchedule`, `createMachineOperatingPolicy` -- with the code of
  the check that fails;
* `createMachineOperatingPolicy_toJs` -- a policy as a value is read back as the policy;
* `createWeeklySchedules_spec` -- this constructor and the one of the services accept and
  sort the same.
-/

namespace AtlasManager.Power

open AtlasManager.Lib Scheduling

/-! ## Windows -/

/-- The week of the machine has the days of the services. -/
abbrev MachineOperatingWeekday := ServiceScheduleWeekday

/-- A window of the machine is one of a service, its day under the name `dayOfWeek`. -/
abbrev MachineOperatingWindow := WeeklyAvailabilityWindow

/-- Its windows are like those of a weekly availability schedule: not empty, in
the order of the week, and disjoint. -/
abbrev MachineWeeklyOperatingSchedule := WeeklyAvailabilitySchedule

inductive MachineWeeklyOperatingScheduleValidationErrorCode where
  | invalidRecord
  | invalidField
  | missingWindows
  | invalidWindows
  | emptyWindows
  | windowsLimitExceeded
  | invalidWindow
  | invalidDayOfWeek
  | invalidLocalTime
  | zeroLengthWindow
  | reversedWindow
  | duplicateWindow
  | overlappingWindows
  deriving DecidableEq, Repr

/-- The days are those of the services, in their order. -/
def machineOperatingWeekday : JsValue → Option MachineOperatingWeekday :=
  createServiceScheduleWeekday

/-- The texts are those of the services. -/
def machineLocalTime : JsValue → Option ServiceScheduleLocalTime :=
  createServiceScheduleLocalTime

def createMachineOperatingWindow (input : JsValue) :
    Except MachineWeeklyOperatingScheduleValidationErrorCode MachineOperatingWindow :=
  match input with
  | .obj fields =>
    if fields.length = 3 ∧ ["dayOfWeek", "start", "end"].all (hasOwn fields) then
      match machineOperatingWeekday (field fields "dayOfWeek") with
      | none => .error .invalidDayOfWeek
      | some dayOfWeek =>
        match machineLocalTime (field fields "start"), machineLocalTime (field fields "end") with
        | some start, some finish =>
          if start = finish then .error .zeroLengthWindow
          else if ordered : start < finish then .ok ⟨dayOfWeek, start, finish, ordered⟩
          else .error .reversedWindow
        | _, _ => .error .invalidLocalTime
    else .error .invalidWindow
  | _ => .error .invalidWindow

/-! ## Schedules -/

/-- Is a window not the same as the one in front of it? -/
def NotDuplicate (previous current : MachineOperatingWindow) : Prop :=
  ¬ (previous.weekday = current.weekday ∧ previous.start = current.start ∧
    previous.finish = current.finish)

instance (previous current : MachineOperatingWindow) : Decidable (NotDuplicate previous current) :=
  inferInstanceAs (Decidable (¬ _))

def createMachineWeeklyOperatingSchedule (input : JsValue) :
    Except MachineWeeklyOperatingScheduleValidationErrorCode MachineWeeklyOperatingSchedule :=
  match input with
  | .obj fields =>
    if fields.length = 1 ∧ hasOwn fields "windows" then
      match field fields "windows" with
      | .arr windows =>
        if hempty : windows.length = 0 then .error .emptyWindows
        else if hlimit : windows.length > 64 then .error .windowsLimitExceeded
        else
          match hmap : windows.mapM createMachineOperatingWindow with
          | .error code => .error code
          | .ok canonicalWindows =>
            if ¬ (sortWindows canonicalWindows).IsChain NotDuplicate then .error .duplicateWindow
            else if hoverlap : (sortWindows canonicalWindows).IsChain NotOverlapping then
              .ok {
                windows := sortWindows canonicalWindows
                count := by
                  rw [sortWindows, List.length_mergeSort, ← (forall₂_of_mapM hmap).length_eq]
                  omega
                ordered := isChain_sortWindows hoverlap }
            else .error .overlappingWindows
      | _ => .error .invalidWindows
    else .error .invalidField
  | _ => .error .invalidRecord

/-! ## What is accepted -/

theorem createMachineOperatingWindow_eq_ok (input : JsValue) (window : MachineOperatingWindow) :
    createMachineOperatingWindow input = .ok window ↔ IsWindow "dayOfWeek" input window := by
  rw [isWindow_iff (by decide)]
  cases input with
  | obj fields =>
      obtain ⟨day, start, finish, ordered⟩ := window
      simp only [createMachineOperatingWindow, JsValue.obj.injEq, exists_eq_left']
      by_cases hexact : fields.length = 3 ∧ ["dayOfWeek", "start", "end"].all (hasOwn fields) = true
      · rw [if_pos hexact, machineOperatingWeekday, machineLocalTime]
        cases hday : createServiceScheduleWeekday (field fields "dayOfWeek") with
        | none => simp
        | some day' =>
            cases hstart : createServiceScheduleLocalTime (field fields "start") with
            | none => simp
            | some start' =>
                cases hfinish : createServiceScheduleLocalTime (field fields "end") with
                | none => simp
                | some finish' =>
                    dsimp only
                    by_cases hordered : start' < finish'
                    · rw [if_neg hordered.ne, dif_pos hordered]
                      simp [hexact]
                    · have hne : ¬ (start' = start ∧ finish' = finish) := by
                        intro hboth
                        exact hordered (hboth.1 ▸ hboth.2 ▸ ordered)
                      simp only [dif_neg hordered, Option.some.injEq, hne, and_false, iff_false]
                      split <;> simp
      · rw [if_neg hexact]
        simp only [hexact, false_and, reduceCtorEq]
  | _ => simp [createMachineOperatingWindow]

/-- Windows that are all valid. -/
theorem mapM_createMachineOperatingWindow_eq_ok {inputs : List JsValue}
    {windows : List MachineOperatingWindow} :
    inputs.mapM createMachineOperatingWindow = .ok windows ↔
      List.Forall₂ (IsWindow "dayOfWeek") inputs windows := by
  have hread : IsWindow "dayOfWeek" = fun input window =>
      createMachineOperatingWindow input = .ok window := by
    funext input window
    exact propext (createMachineOperatingWindow_eq_ok input window).symm
  rw [hread]
  constructor
  · exact forall₂_of_mapM
  · intro h
    induction h with
    | nil => rfl
    | cons hone _ ih =>
        rw [List.mapM_cons, hone, ih]
        rfl

/-- Windows that do not overlap are not the same. -/
theorem notDuplicate_of_notOverlapping {previous current : MachineOperatingWindow}
    (h : NotOverlapping previous current) : NotDuplicate previous current := by
  intro ⟨hday, hstart, _⟩
  exact h ⟨hday, hstart ▸ previous.ordered⟩

theorem createMachineWeeklyOperatingSchedule_eq_ok (inputs : List JsValue)
    (schedule : MachineWeeklyOperatingSchedule) :
    (createMachineWeeklyOperatingSchedule (.obj [("windows", .arr inputs)])).toOption =
        some schedule ↔
      (1 ≤ inputs.length ∧ inputs.length ≤ 64) ∧
        ∃ windows, List.Forall₂ (IsWindow "dayOfWeek") inputs windows ∧
          (sortWindows windows).IsChain NotOverlapping ∧ schedule.windows = sortWindows windows := by
  obtain ⟨scheduled, hscheduled, hordered⟩ := schedule
  simp only [← mapM_createMachineOperatingWindow_eq_ok]
  have hfields : field [("windows", .arr inputs)] "windows" = .arr inputs := rfl
  unfold createMachineWeeklyOperatingSchedule
  dsimp only
  rw [if_pos ⟨rfl, rfl⟩]
  simp only [hfields]
  by_cases hempty : inputs.length = 0
  · simp [hempty, Except.toOption]
  · by_cases hlimit : inputs.length > 64
    · rw [dif_neg hempty, dif_pos hlimit]
      simp [Except.toOption]
      omega
    · have hcount : 1 ≤ inputs.length ∧ inputs.length ≤ 64 := by omega
      rw [dif_neg hempty, dif_neg hlimit]
      split
      · next hmap => simp [hmap, Except.toOption]
      · next windows hmap =>
          by_cases hoverlap : (sortWindows windows).IsChain NotOverlapping
          · have hduplicate := hoverlap.imp fun _ _ => notDuplicate_of_notOverlapping
            simp [hmap, hoverlap, hduplicate, hcount, Except.toOption, eq_comm]
          · simp only [hmap, hoverlap, dif_neg, not_false_eq_true]
            split <;> simp [Except.toOption, hoverlap]

/-- **Both constructors of weekly schedules** accept the lists of valid windows of which no two
overlap, and sort them. -/
theorem createWeeklySchedules_spec :
    SchedulesWindows "weekday" createWeeklyAvailabilitySchedule ∧
      SchedulesWindows "dayOfWeek" fun windows =>
        (createMachineWeeklyOperatingSchedule (.obj [("windows", .arr windows)])).toOption :=
  ⟨schedulesWindows_createWeeklyAvailabilitySchedule,
    schedulesWindows_of_eq_some createMachineWeeklyOperatingSchedule_eq_ok⟩

/-! ## Policies -/

inductive MachineOperatingMode where
  | alwaysOn
  | scheduled
  | manual
  deriving DecidableEq, Repr

def machineOperatingModes : List MachineOperatingMode := [.alwaysOn, .scheduled, .manual]

def MachineOperatingMode.text : MachineOperatingMode → String
  | alwaysOn => "always_on"
  | scheduled => "scheduled"
  | manual => "manual"

/-- The only time zone of a schedule. -/
def machineOperatingTimezone : String := "America/Sao_Paulo"

inductive MachineOperatingPolicy where
  | alwaysOn
  | manual
  | scheduled (weeklySchedule : MachineWeeklyOperatingSchedule)
  deriving DecidableEq

inductive MachineOperatingPolicyValidationErrorCode where
  | invalidRecord
  | missingMode
  | invalidMode
  | invalidField
  | missingTimezone
  | invalidTimezone
  | missingWeeklySchedule
  /-- The check of the schedule has failed. -/
  | schedule (code : MachineWeeklyOperatingScheduleValidationErrorCode)
  deriving DecidableEq, Repr

def createMachineOperatingPolicy (input : JsValue) :
    Except MachineOperatingPolicyValidationErrorCode MachineOperatingPolicy :=
  match input with
  | .obj fields =>
    if ¬ hasOwn fields "mode" then .error .missingMode
    else
      match oneOf machineOperatingModes MachineOperatingMode.text (field fields "mode") with
      | none => .error .invalidMode
      | some .alwaysOn => if fields.length = 1 then .ok .alwaysOn else .error .invalidField
      | some .manual => if fields.length = 1 then .ok .manual else .error .invalidField
      | some .scheduled =>
        if ¬ hasOwn fields "timezone" then .error .missingTimezone
        else if field fields "timezone" ≠ .str machineOperatingTimezone then .error .invalidTimezone
        else if ¬ hasOwn fields "weeklySchedule" then .error .missingWeeklySchedule
        else if fields.length ≠ 3 then .error .invalidField
        else
          match createMachineWeeklyOperatingSchedule (field fields "weeklySchedule") with
          | .error code => .error (.schedule code)
          | .ok weeklySchedule => .ok (.scheduled weeklySchedule)
  | _ => .error .invalidRecord

/-- A window of the machine as a value. -/
def machineWindowToJs (window : MachineOperatingWindow) : JsValue :=
  .obj [("dayOfWeek", .str window.weekday.text), ("start", .str (localTimeText window.start)),
    ("end", .str (localTimeText window.finish))]

/-- A schedule of windows as a value. -/
def scheduleToJs (windows : List JsValue) : JsValue :=
  .obj [("mode", .str "scheduled"), ("timezone", .str machineOperatingTimezone),
    ("weeklySchedule", .obj [("windows", .arr windows)])]

def MachineOperatingPolicy.toJs : MachineOperatingPolicy → JsValue
  | .alwaysOn => .obj [("mode", .str "always_on")]
  | .manual => .obj [("mode", .str "manual")]
  | .scheduled weeklySchedule => scheduleToJs (weeklySchedule.windows.map machineWindowToJs)

theorem isWindow_machineWindowToJs (window : MachineOperatingWindow) :
    IsWindow "dayOfWeek" (machineWindowToJs window) window := ⟨_, rfl, .refl _⟩

/-- The policy of a schedule of windows. -/
theorem createMachineOperatingPolicy_scheduleToJs {windows : List MachineOperatingWindow}
    {policy : MachineOperatingPolicy} :
    createMachineOperatingPolicy (scheduleToJs (windows.map machineWindowToJs)) = .ok policy ↔
      ∃ schedule, policy = .scheduled schedule ∧ (1 ≤ windows.length ∧ windows.length ≤ 64) ∧
        (sortWindows windows).IsChain NotOverlapping ∧ schedule.windows = sortWindows windows := by
  have hwindows : ∀ windows' : List MachineOperatingWindow,
      List.Forall₂ (IsWindow "dayOfWeek") (windows.map machineWindowToJs) windows' ↔
        windows' = windows := by
    intro windows'
    have hread : (windows.map machineWindowToJs).mapM createMachineOperatingWindow = .ok windows := by
      rw [mapM_createMachineOperatingWindow_eq_ok, List.forall₂_map_left_iff, List.forall₂_same]
      exact fun window _ => isWindow_machineWindowToJs window
    rw [← mapM_createMachineOperatingWindow_eq_ok, hread]
    exact ⟨fun h => (Except.ok.inj h).symm, fun h => congrArg _ h.symm⟩
  have hcreate := createMachineWeeklyOperatingSchedule_eq_ok (windows.map machineWindowToJs)
  simp only [hwindows, exists_eq_left, List.length_map] at hcreate
  change (match createMachineWeeklyOperatingSchedule
      (.obj [("windows", .arr (windows.map machineWindowToJs))]) with
    | .error code => Except.error (MachineOperatingPolicyValidationErrorCode.schedule code)
    | .ok weeklySchedule => Except.ok (MachineOperatingPolicy.scheduled weeklySchedule)) = _ ↔ _
  cases hschedule : createMachineWeeklyOperatingSchedule
      (.obj [("windows", .arr (windows.map machineWindowToJs))]) with
  | error code =>
      rw [hschedule] at hcreate
      simp only [reduceCtorEq, false_iff]
      rintro ⟨schedule, -, hcount⟩
      exact absurd ((hcreate schedule).mpr hcount) (by simp [Except.toOption])
  | ok weeklySchedule =>
      rw [hschedule] at hcreate
      simp only [Except.ok.injEq, ← hcreate, Except.toOption, Option.some.injEq]
      constructor
      · exact fun h => ⟨weeklySchedule, h.symm, rfl⟩
      · rintro ⟨schedule, rfl, rfl⟩
        rfl

/-- **Round trip**: a policy as a value is read back as the policy. -/
theorem createMachineOperatingPolicy_toJs (policy : MachineOperatingPolicy) :
    createMachineOperatingPolicy policy.toJs = .ok policy := by
  cases policy with
  | alwaysOn => rfl
  | manual => rfl
  | scheduled schedule =>
      have hsorted := sortWindows_of_isChain schedule.ordered
      refine createMachineOperatingPolicy_scheduleToJs.mpr ⟨schedule, rfl, schedule.count, ?_,
        hsorted.symm⟩
      rw [isChain_sortWindows_iff]
      exact (pairwise_before_of_isChain schedule.ordered).imp fun h => not_overlap_iff.mpr (.inl h)

end AtlasManager.Power
