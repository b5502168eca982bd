import AtlasManager.Dashboard.ScheduleEditor
import AtlasManager.Scheduling.ServicePolicy
import AtlasManager.Power.MachineOperatingPolicy

/-!
# AtlasManager.Dashboard.EditorRoundTrip

Opening a policy in its editor and saving it without an edit.

* `submit` -- what an editor saves;
* `saves_iff` -- the policies that are saved as they were.
-/

namespace AtlasManager.Dashboard

open AtlasManager.Lib Scheduling Power

/-! ## Saving -/

/-- `/^\d{2}:\d{2}$/`. -/
def isClockText (text : String) : Bool :=
  match text.toList with
  | [a, b, ':', c, d] => a.isDigit && b.isDigit && c.isDigit && d.isDigit
  | _ => false

/-- What is wrong with the windows of a schedule. -/
def validateWeeklyEditorWindows (windows : List WeeklyEditorWindow) (timezone : String) :
    Option String :=
  if trim timezone = "" then some "Timezone is required."
  else if windows.length = 0 then some "Select at least one day."
  else windows.findSome? fun window =>
    if window.weekday ∉ editorWeekdays.map (·.text) then some "Weekday is invalid."
    else if ¬ (isClockText window.start && isClockText window.finish) then some "Time must use HH:MM."
    else if ¬ window.start < window.finish then some "Start time must be before end time."
    else none

namespace EditorKind

/-- The windows of a schedule as a value, the day of each under this name. -/
def windowsToJs (dayField : String) (windows : List WeeklyEditorWindow) : JsValue :=
  .arr (windows.map fun window =>
    .obj [(dayField, .str window.weekday), ("start", .str window.start), ("end", .str window.finish)])

/-- The schedule that an editor saves. -/
def scheduleInput (kind : EditorKind) (timezone : String) (windows : List WeeklyEditorWindow) :
    JsValue :=
  match kind with
  | weekly => .obj [("mode", .str "scheduled"), ("timezone", .str timezone),
      ("windows", windowsToJs "weekday" windows)]
  | machine => .obj [("mode", .str "scheduled"), ("timezone", .str timezone),
      ("weeklySchedule", .obj [("windows", windowsToJs "dayOfWeek" windows)])]

/-- The policy that an editor submits, or what it says is wrong. -/
def submit (kind : EditorKind) (editor : Editor) : Except String JsValue :=
  let windows := editor.readWindowsFromFields
  if editor.mode = "scheduled" then
    match validateWeeklyEditorWindows windows editor.timezone with
    | some error => .error error
    | none => .ok (kind.scheduleInput editor.timezone windows)
  else .ok (.obj [("mode", .str editor.mode)])

end EditorKind

/-! ## Policies as they are read -/

/-- A policy of a service as the read operation returns it. -/
def policyToJs : ServiceAvailabilityPolicy → JsValue
  | .scheduled schedule => .obj [("mode", .str "scheduled"),
      ("timezone", .str serviceScheduleTimezone),
      ("schedule", .obj [("windows", .arr (schedule.windows.map WeeklyAvailabilityWindow.toJs))])]
  | policy => .obj [("mode", .str policy.mode.text), ("timezone", .null), ("schedule", .null)]

/-- What `getRegisteredServiceSchedule` returns. -/
def serviceScheduleRead (serviceId observedAt : String) (policy : ServiceAvailabilityPolicy) :
    JsValue :=
  .obj [("serviceId", .str serviceId), ("policy", policyToJs policy), ("observedAt", .str observedAt)]

/-- What `getMachineOperatingPolicy` returns; the overview has the policy alone. -/
def machineScheduleRead (source : String) (policy : MachineOperatingPolicy) : JsValue :=
  .obj [("policy", policy.toJs), ("source", .str source)]

/-- A policy of a service is saved as it was. -/
def SavesServicePolicy (value : JsValue) (policy : ServiceAvailabilityPolicy) : Prop :=
  ∃ input, EditorKind.weekly.submit (EditorKind.weekly.openEditor value) = .ok input ∧
    createServiceAvailabilityPolicy input = some policy

/-- A policy of the machine is saved as it was. -/
def SavesMachinePolicy (value : JsValue) (policy : MachineOperatingPolicy) : Prop :=
  ∃ input, EditorKind.machine.submit (EditorKind.machine.openEditor value) = .ok input ∧
    createMachineOperatingPolicy input = .ok policy

/-! ## Opened schedules -/

theorem textInput_timezone : textInput "America/Sao_Paulo" = "America/Sao_Paulo" := by decide +kernel

theorem trim_timezone : trim "America/Sao_Paulo" ≠ "" := by decide +kernel

/-- A value that is read as a schedule of windows opens the editor on them. -/
theorem openEditor_scheduled {kind : EditorKind} {value : JsValue}
    {windows : List WeeklyEditorWindow}
    (h : kind.read value = ⟨"scheduled", "America/Sao_Paulo", windows⟩) :
    kind.openEditor value = .opened "scheduled" "America/Sao_Paulo" windows := by
  have hmode : "scheduled" ∈ kind.modes := by cases kind <;> decide
  rw [EditorKind.openEditor, h]
  dsimp only
  rw [if_pos hmode, textInput_timezone]

/-- The windows that are read back from an editor that was opened on these. -/
def shownWindows (windows : List WeeklyEditorWindow) : List WeeklyEditorWindow :=
  editorWeekdays.filterMap fun weekday =>
    (DayFields.showing (Editor.existing windows weekday) false).window? weekday

theorem submit_scheduled {kind : EditorKind} {value : JsValue} {windows : List WeeklyEditorWindow}
    (h : kind.read value = ⟨"scheduled", "America/Sao_Paulo", windows⟩) :
    kind.submit (kind.openEditor value) =
      match validateWeeklyEditorWindows (shownWindows windows) "America/Sao_Paulo" with
      | some error => .error error
      | none => .ok (kind.scheduleInput "America/Sao_Paulo" (shownWindows windows)) := by
  rw [openEditor_scheduled h, EditorKind.submit]
  exact if_pos rfl

/-! ## Services -/

theorem savesServicePolicy_iff (serviceId observedAt : String) (policy : ServiceAvailabilityPolicy) :
    SavesServicePolicy (serviceScheduleRead serviceId observedAt policy) policy ↔
      policy.mode ≠ .scheduled := by
  cases policy with
  | scheduled schedule =>
      -- no window is read, and none is not accepted
      have hread : EditorKind.weekly.read (serviceScheduleRead serviceId observedAt
          (.scheduled schedule)) = ⟨"scheduled", "America/Sao_Paulo", []⟩ := rfl
      have hvalidate : validateWeeklyEditorWindows (shownWindows []) "America/Sao_Paulo" =
          some "Select at least one day." := by
        rw [validateWeeklyEditorWindows, if_neg trim_timezone]
        exact if_pos rfl
      rw [SavesServicePolicy, submit_scheduled hread, hvalidate]
      simp [ServiceAvailabilityPolicy.mode]
  | always => exact iff_of_true ⟨_, rfl, rfl⟩ (by decide)
  | manual => exact iff_of_true ⟨_, rfl, rfl⟩ (by decide)
  | disabled => exact iff_of_true ⟨_, rfl, rfl⟩ (by decide)

/-! ## Times -/

theorem toList_localTimeText (time : ServiceScheduleLocalTime) :
    (localTimeText time).toList = [Nat.digitChar (time / 60 / 10 % 10), Nat.digitChar (time / 60 % 10),
      ':', Nat.digitChar (time % 60 / 10 % 10), Nat.digitChar (time % 60 % 10)] := by
  simp [localTimeText, pad]

theorem isPair_digits {last n : Nat} (hn : n ≤ last) (hlast : last < 100) :
    isPair last (Nat.digitChar (n / 10 % 10)) (Nat.digitChar (n % 10)) = true := by
  have hdigits : ∀ n < 100, isPair n (Nat.digitChar (n / 10 % 10)) (Nat.digitChar (n % 10)) = true := by
    decide +kernel
  have hself := hdigits n (by omega)
  simp only [isPair, Bool.and_eq_true, decide_eq_true_eq] at hself ⊢
  exact ⟨hself.1, hself.2.trans hn⟩

/-- An input of times keeps the times of a schedule. -/
theorem timeInput_localTimeText (time : ServiceScheduleLocalTime) :
    timeInput (localTimeText time) = localTimeText time := by
  have hhour := @isPair_digits 23 (time / 60) (by omega) (by omega)
  have hminute := @isPair_digits 59 (time % 60) (by omega) (by omega)
  have htime : isTimeString (localTimeText time) = true := by
    rw [isTimeString, toList_localTimeText]
    simp only [hhour, hminute, Bool.and_self]
  rw [timeInput, if_pos htime]


theorem localTimeText_ne_empty (time : ServiceScheduleLocalTime) : localTimeText time ≠ "" := by
  intro heq
  have hlist := toList_localTimeText time
  rw [heq] at hlist
  cases hlist

theorem isClockText_localTimeText (time : ServiceScheduleLocalTime) :
    isClockText (localTimeText time) = true := by
  have hdigit : ∀ d < 10, (Nat.digitChar d).isDigit = true := by decide
  rw [isClockText, toList_localTimeText]
  simp [hdigit, Nat.mod_lt]

/-- The texts of times are ordered like the times. -/
theorem localTimeText_lt {a b : ServiceScheduleLocalTime} (h : a < b) :
    localTimeText a < localTimeText b := by
  have hdigit : ∀ d < 10, ∀ e < 10, d < e → Nat.digitChar d < Nat.digitChar e := by decide
  have hminutes : a.val < b.val := h
  rw [String.lt_iff_toList_lt, toList_localTimeText, toList_localTimeText]
  simp only [List.cons_lt_cons_iff]
  -- the first digit that differs decides
  rcases lt_or_eq_of_le (show a.val / 60 / 10 % 10 ≤ b.val / 60 / 10 % 10 by omega) with hlt | heq
  · exact .inl (hdigit _ (by omega) _ (by omega) hlt)
  · refine .inr ⟨by rw [heq], ?_⟩
    rcases lt_or_eq_of_le (show a.val / 60 % 10 ≤ b.val / 60 % 10 by omega) with hlt | heq'
    · exact .inl (hdigit _ (by omega) _ (by omega) hlt)
    · refine .inr ⟨by rw [heq'], .inr ⟨trivial, ?_⟩⟩
      rcases lt_or_eq_of_le (show a.val % 60 / 10 % 10 ≤ b.val % 60 / 10 % 10 by omega) with hlt | heq''
      · exact .inl (hdigit _ (by omega) _ (by omega) hlt)
      · exact .inr ⟨by rw [heq''], .inl (hdigit _ (by omega) _ (by omega) (by omega))⟩

/-! ## Windows of the machine -/

/-- A window as the editor sees it. -/
def toEditorWindow (window : MachineOperatingWindow) : WeeklyEditorWindow :=
  ⟨window.weekday.text, localTimeText window.start, localTimeText window.finish⟩

/-- The first window of each day. -/
def firstWindows (windows : List MachineOperatingWindow) : List MachineOperatingWindow :=
  editorWeekdays.filterMap fun weekday => windows.find? (·.weekday = weekday)

theorem readWindows_machine (windows : List MachineOperatingWindow) :
    readWindows "dayOfWeek" (.arr (windows.map machineWindowToJs)) = windows.map toEditorWindow := by
  rw [readWindows, List.filterMap_map]
  exact congrFun List.filterMap_eq_map' windows

theorem existing_map_toEditorWindow (windows : List MachineOperatingWindow) (weekday : EditorWeekday) :
    Editor.existing (windows.map toEditorWindow) weekday =
      (windows.find? (·.weekday = weekday)).map toEditorWindow := by
  rw [Editor.existing, List.find?_map]
  congr 2
  funext window
  exact decide_eq_decide.mpr ⟨text_inj, fun h => h ▸ rfl⟩

/-- Every window is shown as it is. -/
theorem window?_showing (window : MachineOperatingWindow) (copyTarget : Bool) :
    (DayFields.showing (some (toEditorWindow window)) copyTarget).window? window.weekday =
      some (toEditorWindow window) := by
  have hshown : DayFields.showing (some (toEditorWindow window)) copyTarget =
      ⟨true, localTimeText window.start, localTimeText window.finish, copyTarget⟩ := by
    unfold DayFields.showing DayFields.sync
    simp [toEditorWindow, timeInput_localTimeText]
  rw [hshown, DayFields.window?]
  exact if_pos (by simp [DayFields.isComplete, localTimeText_ne_empty])

/-- An editor shows the first window of each day. -/
theorem shownWindows_map (windows : List MachineOperatingWindow) :
    shownWindows (windows.map toEditorWindow) = (firstWindows windows).map toEditorWindow := by
  rw [shownWindows, firstWindows, List.map_filterMap]
  refine List.filterMap_congr fun weekday _ => ?_
  rw [existing_map_toEditorWindow]
  cases hfind : windows.find? (·.weekday = weekday) with
  | none => rfl
  | some window =>
      have hday : window.weekday = weekday := by
        have hfound := List.find?_some hfind
        rwa [decide_eq_true_eq] at hfound
      rw [← hday]
      exact window?_showing window false

theorem validate_map_toEditorWindow {windows : List MachineOperatingWindow} (hne : windows ≠ []) :
    validateWeeklyEditorWindows (windows.map toEditorWindow) "America/Sao_Paulo" = none := by
  rw [validateWeeklyEditorWindows, if_neg trim_timezone, if_neg (by simpa using hne),
    List.findSome?_eq_none_iff]
  intro window hwindow
  obtain ⟨window, -, rfl⟩ := List.mem_map.mp hwindow
  have hday : window.weekday.text ∈ editorWeekdays.map (·.text) :=
    List.mem_map_of_mem (mem_editorWeekdays _)
  simp [toEditorWindow, hday, isClockText_localTimeText, localTimeText_lt window.ordered]

theorem scheduleInput_machine (windows : List MachineOperatingWindow) :
    EditorKind.machine.scheduleInput "America/Sao_Paulo" (windows.map toEditorWindow) =
      scheduleToJs (windows.map machineWindowToJs) := by
  rw [EditorKind.scheduleInput, EditorKind.windowsToJs, List.map_map]
  rfl

/-! ## One window a day -/

theorem weekday_of_find {windows : List MachineOperatingWindow} {weekday : EditorWeekday}
    {window : MachineOperatingWindow} (h : windows.find? (·.weekday = weekday) = some window) :
    window.weekday = weekday := by
  have hfound := List.find?_some h
  rwa [decide_eq_true_eq] at hfound

/-- The first windows are of different days, in the order of the week. -/
theorem pairwise_firstWindows (windows : List MachineOperatingWindow) :
    (firstWindows windows).Pairwise fun a b => a.weekday.order < b.weekday.order := by
  have hweek : editorWeekdays.Pairwise fun a b => a.order < b.order := by decide
  refine hweek.filterMap _ fun a b hab window hwindow window' hwindow' => ?_
  rw [weekday_of_find hwindow, weekday_of_find hwindow']
  exact hab

theorem mem_firstWindows {windows : List MachineOperatingWindow} {window : MachineOperatingWindow}
    (h : window ∈ firstWindows windows) : window ∈ windows := by
  obtain ⟨weekday, -, hfind⟩ := List.mem_filterMap.mp h
  exact List.mem_of_find?_eq_some hfind

/-- With one window a day at most, the first windows are all. -/
theorem firstWindows_eq {windows : List MachineOperatingWindow}
    (hsorted : windows.Pairwise WeeklyAvailabilityWindow.Before)
    (hdays : (windows.map (·.weekday)).Nodup) : firstWindows windows = windows := by
  have hfirst := pairwise_firstWindows windows
  have hmem : ∀ window, window ∈ firstWindows windows ↔ window ∈ windows := by
    refine fun window => ⟨mem_firstWindows, fun hwindow => ?_⟩
    have hfind : windows.find? (·.weekday = window.weekday) = some window :=
      find?_key (fun a ha b hb => List.inj_on_of_nodup_map hdays ha hb) hwindow
    exact List.mem_filterMap.mpr ⟨window.weekday, mem_editorWeekdays _, hfind⟩
  have hnodup : (firstWindows windows).Nodup := hfirst.imp fun hlt heq => (heq ▸ hlt).false
  have hperm := (List.perm_ext_iff_of_nodup hnodup hdays.of_map).mpr hmem
  refine hperm.eq_of_pairwise (fun a b _ _ hab hba => ?_) (hfirst.imp fun hlt => .inl hlt) hsorted
  -- no window stands both before and behind another
  rcases hab with hab | ⟨hab, hle⟩
  · rcases hba with hba | ⟨hba, -⟩
    · omega
    · rw [hba] at hab
      exact absurd hab (lt_irrefl _)
  · rcases hba with hba | ⟨-, hle'⟩
    · rw [hab] at hba
      exact absurd hba (lt_irrefl _)
    · exact absurd (a.ordered.trans_le (hle.trans (b.ordered.le.trans hle'))) (lt_irrefl _)

theorem savesMachineSchedule_iff {value : JsValue} {schedule : MachineWeeklyOperatingSchedule}
    (hread : EditorKind.machine.read value =
      ⟨"scheduled", "America/Sao_Paulo", schedule.windows.map toEditorWindow⟩) :
    SavesMachinePolicy value (.scheduled schedule) ↔ (schedule.windows.map (·.weekday)).Nodup := by
  have hne : firstWindows schedule.windows ≠ [] := by
    obtain ⟨window, hwindow⟩ := List.exists_mem_of_length_pos schedule.count.1
    have hsome : (schedule.windows.find? (·.weekday = window.weekday)).isSome = true :=
      List.find?_isSome.mpr ⟨window, hwindow, decide_eq_true_eq.mpr rfl⟩
    obtain ⟨first, hfirst⟩ := Option.isSome_iff_exists.mp hsome
    exact List.ne_nil_of_mem
      (List.mem_filterMap.mpr ⟨window.weekday, mem_editorWeekdays _, hfirst⟩)
  rw [SavesMachinePolicy, submit_scheduled hread, shownWindows_map, validate_map_toEditorWindow hne,
    scheduleInput_machine]
  simp only [Except.ok.injEq, exists_eq_left']
  constructor
  · intro hcreate
    obtain ⟨schedule', hsame, -, -, hsorted⟩ := createMachineOperatingPolicy_scheduleToJs.mp hcreate
    obtain rfl := MachineOperatingPolicy.scheduled.inj hsame
    rw [hsorted, ((sortWindows_perm _).map _).nodup_iff, List.Nodup, List.pairwise_map]
    exact (pairwise_firstWindows _).imp fun hlt heq => (heq ▸ hlt).false
  · intro hdays
    rw [firstWindows_eq (pairwise_before_of_isChain schedule.ordered) hdays]
    exact createMachineOperatingPolicy_toJs (.scheduled schedule)

/-- The days of the windows of a policy. -/
def scheduledDays : MachineOperatingPolicy → List MachineOperatingWeekday
  | .scheduled schedule => schedule.windows.map (·.weekday)
  | _ => []

theorem savesMachinePolicy_iff (source : String) (policy : MachineOperatingPolicy) :
    (SavesMachinePolicy (machineScheduleRead source policy) policy ↔ (scheduledDays policy).Nodup) ∧
      (SavesMachinePolicy policy.toJs policy ↔ (scheduledDays policy).Nodup) := by
  cases policy with
  | alwaysOn => exact ⟨iff_of_true ⟨_, rfl, rfl⟩ .nil, iff_of_true ⟨_, rfl, rfl⟩ .nil⟩
  | manual => exact ⟨iff_of_true ⟨_, rfl, rfl⟩ .nil, iff_of_true ⟨_, rfl, rfl⟩ .nil⟩
  | scheduled schedule =>
      have hwindows := readWindows_machine schedule.windows
      refine ⟨savesMachineSchedule_iff ?_, savesMachineSchedule_iff ?_⟩
      · rw [← hwindows]
        rfl
      · rw [← hwindows]
        rfl

/-- **The policies that are saved as they were**: of the services those without a schedule,
and of the machine those with one window a day at most, in whichever form they are read. -/
theorem saves_iff (serviceId observedAt source : String) (policy : ServiceAvailabilityPolicy)
    (machinePolicy : MachineOperatingPolicy) :
    (SavesServicePolicy (serviceScheduleRead serviceId observedAt policy) policy ↔
      policy.mode ≠ .scheduled) ∧
    (SavesMachinePolicy (machineScheduleRead source machinePolicy) machinePolicy ↔
      (scheduledDays machinePolicy).Nodup) ∧
    (SavesMachinePolicy machinePolicy.toJs machinePolicy ↔ (scheduledDays machinePolicy).Nodup) :=
  ⟨savesServicePolicy_iff serviceId observedAt policy, savesMachinePolicy_iff source machinePolicy⟩

/-! ## Schedules that are lost -/

/-- Monday from nine to twelve. -/
def mondayMorning : WeeklyAvailabilitySchedule where
  windows := [⟨.monday, 540, 720, by decide⟩]
  count := by decide
  ordered := List.isChain_singleton _

/-- Monday from nine to twelve and from one to five. -/
def mondayWithBreak : MachineWeeklyOperatingSchedule where
  windows := [⟨.monday, 540, 720, by decide⟩, ⟨.monday, 780, 1020, by decide⟩]
  count := by decide
  ordered := by decide

/-- A schedule of a service is not saved at all, and of two windows on a day the second one
is lost. -/
theorem not_saves_monday :
    ¬ SavesServicePolicy (serviceScheduleRead "web" "2026-01-05T12:00:00.000Z"
      (.scheduled mondayMorning)) (.scheduled mondayMorning) ∧
    ¬ SavesMachinePolicy (machineScheduleRead "persisted" (.scheduled mondayWithBreak))
      (.scheduled mondayWithBreak) := by
  refine ⟨?_, ?_⟩
  · rw [savesServicePolicy_iff]
    simp [ServiceAvailabilityPolicy.mode]
  · rw [(savesMachinePolicy_iff _ _).1]
    decide

end AtlasManager.Dashboard
