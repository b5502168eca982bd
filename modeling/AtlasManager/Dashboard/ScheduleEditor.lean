import AtlasManager.Scheduling.WeeklySchedule
import AtlasManager.Lib.Protocol

/-!
# AtlasManager.Dashboard.ScheduleEditor

The editors of weekly schedules: a list of windows, and input fields for each day.

* `step` -- what an action on an editor does;
* `Keeps` -- what is asked of clearing a day and of copying one;
* `editor_keeps_iff` -- when all actions of a session do it.
-/

namespace AtlasManager.Dashboard

open AtlasManager.Lib Scheduling

/-! ## Windows -/

/-- A window as the editors see it: texts that nobody has checked. -/
structure WeeklyEditorWindow where
  weekday : String
  start : String
  finish : String
  deriving DecidableEq

abbrev EditorWeekday := ServiceScheduleWeekday

def editorWeekdays : List EditorWeekday := serviceScheduleWeekdays

/-- Copies the window of a day to others, whatever windows these have had. -/
def copyWindowToDays (windows : List WeeklyEditorWindow) (sourceWeekday : String)
    (targetWeekdays : List String) : List WeeklyEditorWindow :=
  match windows.find? (·.weekday = sourceWeekday) with
  | none => windows
  | some source =>
    let targets := distinct (targetWeekdays.filter (· ≠ sourceWeekday))
    let kept := windows.filter (·.weekday ∉ targets)
    kept ++ targets.map fun weekday => ⟨weekday, source.start, source.finish⟩

def clearDayWindow (windows : List WeeklyEditorWindow) (weekday : String) :
    List WeeklyEditorWindow :=
  windows.filter (·.weekday ≠ weekday)

/-! ## Fields -/

/-- Is a text a number of two digits up to `last`? -/
def isPair (last : Nat) (a b : Char) : Bool :=
  a.isDigit && b.isDigit && 10 * (a.toNat - '0'.toNat) + (b.toNat - '0'.toNat) ≤ last

/-- Is a text a time, with seconds and fractions of them or without? -/
def isTimeString (text : String) : Bool :=
  match text.toList with
  | [a, b, ':', c, d] => isPair 23 a b && isPair 59 c d
  | [a, b, ':', c, d, ':', e, f] => isPair 23 a b && isPair 59 c d && isPair 59 e f
  | a :: b :: ':' :: c :: d :: ':' :: e :: f :: '.' :: fraction =>
    isPair 23 a b && isPair 59 c d && isPair 59 e f &&
      1 ≤ fraction.length && fraction.length ≤ 3 && fraction.all (·.isDigit)
  | _ => false

/-- What an input of times keeps of a text. -/
def timeInput (text : String) : String := if isTimeString text then text else ""

/-- What an input of texts keeps of one. -/
def textInput (text : String) : String :=
  String.ofList (text.toList.filter fun c => c ≠ '\n' && c ≠ '\r')

/-- The inputs of a day. -/
structure DayFields where
  enabled : Bool
  start : String
  finish : String
  copyTarget : Bool
  deriving DecidableEq

namespace DayFields

/-- What is entered for a day. -/
def entered (fields : DayFields) : Bool × String × String :=
  (fields.enabled, fields.start, fields.finish)

/-- `syncFieldState`. -/
def sync (fields : DayFields) : DayFields :=
  if fields.enabled then fields else { fields with start := "", finish := "" }

/-- Does a day have a window? -/
def isComplete (fields : DayFields) : Bool :=
  fields.enabled && fields.start ≠ "" && fields.finish ≠ ""

/-- Does a day have a window, or is it not enabled? -/
def isSettled (fields : DayFields) : Bool := fields.isComplete || !fields.enabled

def window? (weekday : EditorWeekday) (fields : DayFields) :
    Option WeeklyEditorWindow :=
  if fields.isComplete then some ⟨weekday.text, fields.start, fields.finish⟩ else none

/-- Inputs that hold times, and nothing when the day is not enabled. -/
structure Clean (fields : DayFields) : Prop where
  start : timeInput fields.start = fields.start
  finish : timeInput fields.finish = fields.finish
  empty : fields.enabled = false → fields.start = "" ∧ fields.finish = ""

/-- The inputs that show a window, or none. -/
def showing (existing : Option WeeklyEditorWindow) (copyTarget : Bool) : DayFields :=
  sync {
    enabled := existing.isSome
    start := timeInput ((existing.map (·.start)).getD "")
    finish := timeInput ((existing.map (·.finish)).getD "")
    copyTarget }

end DayFields

/-! ## Editors -/

/-- An editor: the list of windows and the inputs are kept apart. -/
structure Editor where
  windows : List WeeklyEditorWindow
  fields : EditorWeekday → DayFields
  mode : String
  timezone : String

namespace Editor

/-- The first window of a day. -/
def existing (windows : List WeeklyEditorWindow) (weekday : EditorWeekday) :
    Option WeeklyEditorWindow :=
  windows.find? (·.weekday = weekday.text)

def readWindowsFromFields (editor : Editor) : List WeeklyEditorWindow :=
  editorWeekdays.filterMap fun weekday => (editor.fields weekday).window? weekday

def applyWindowsToFields (editor : Editor) : Editor :=
  { editor with
    fields := fun weekday =>
      .showing (existing editor.windows weekday) (editor.fields weekday).copyTarget }

def setFields (editor : Editor) (weekday : EditorWeekday) (fields : DayFields) : Editor :=
  { editor with fields := Function.update editor.fields weekday fields }

/-- The days that a window is copied to. -/
def targets (editor : Editor) : List EditorWeekday :=
  editorWeekdays.filter fun weekday => (editor.fields weekday).copyTarget

end Editor

/-- What can be done with the inputs and the buttons. -/
inductive EditorAction where
  | setStart (weekday : EditorWeekday) (text : String)
  | setEnd (weekday : EditorWeekday) (text : String)
  | setEnabled (weekday : EditorWeekday) (checked : Bool)
  | setCopyTarget (weekday : EditorWeekday) (checked : Bool)
  | clearDay (weekday : EditorWeekday)
  | copyFrom (weekday : EditorWeekday)
  | clearWeek

namespace Editor

def step (editor : Editor) : EditorAction → Editor
  | .setStart weekday text =>
    -- the inputs of a day that is not enabled take no text
    let fields := editor.fields weekday
    if fields.enabled then editor.setFields weekday { fields with start := timeInput text }
    else editor
  | .setEnd weekday text =>
    let fields := editor.fields weekday
    if fields.enabled then editor.setFields weekday { fields with finish := timeInput text }
    else editor
  | .setEnabled weekday checked =>
    editor.setFields weekday { editor.fields weekday with enabled := checked }.sync
  | .setCopyTarget weekday checked =>
    editor.setFields weekday { editor.fields weekday with copyTarget := checked }
  | .clearDay weekday =>
    applyWindowsToFields { editor with windows := clearDayWindow editor.windows weekday.text }
  | .copyFrom weekday =>
    applyWindowsToFields { editor with
      windows := copyWindowToDays editor.readWindowsFromFields weekday.text
        (editor.targets.map (·.text)) }
  | .clearWeek => applyWindowsToFields { editor with windows := [] }

/-- An editor that has just been rendered. -/
def opened (mode timezone : String) (windows : List WeeklyEditorWindow) : Editor :=
  applyWindowsToFields { windows, fields := fun _ => ⟨false, "", "", false⟩, mode, timezone }

end Editor

/-! ## Reading a policy -/

/-- The two editors, of the schedule of a service and of that of the machine. -/
inductive EditorKind where
  | weekly
  | machine
  deriving DecidableEq

/-- The fields of a value; one that is no record reads like a record without fields. -/
def recordFields : JsValue → List (String × JsValue)
  | .obj fields => fields
  | _ => []

def textOr (fallback : String) : JsValue → String
  | .str text => text
  | _ => fallback

/-- The windows in an array, the day of each under this name. -/
def readWindows (dayField : String) : JsValue → List WeeklyEditorWindow
  | .arr entries => entries.filterMap fun entry =>
    let window := recordFields entry
    match field window dayField, field window "start", field window "end" with
    | .str weekday, .str start, .str finish => some ⟨weekday, start, finish⟩
    | _, _, _ => none
  | _ => []

structure EditorPolicy where
  mode : String
  timezone : String
  windows : List WeeklyEditorWindow

def readPolicy (value : JsValue) : EditorPolicy :=
  let source := recordFields (field (recordFields value) "policy")
  { mode := textOr "manual" (field source "mode")
    timezone := textOr "America/Sao_Paulo" (field source "timezone")
    windows := readWindows "weekday" (field source "windows") }

/-- A policy of the machine comes alone or as the field of a record. -/
def readMachinePolicy (value : JsValue) : EditorPolicy :=
  let record := recordFields value
  let source :=
    match field record "policy" with
    | .obj policy => policy
    | .arr _ => []
    | _ => record
  { mode := textOr "always_on" (field source "mode")
    timezone := textOr "America/Sao_Paulo" (field source "timezone")
    windows := readWindows "dayOfWeek" (field (recordFields (field source "weeklySchedule")) "windows") }

namespace EditorKind

def read : EditorKind → JsValue → EditorPolicy
  | weekly => readPolicy
  | machine => readMachinePolicy

def modes : EditorKind → List String
  | weekly => ["always", "scheduled", "manual", "disabled"]
  | machine => ["always_on", "manual", "scheduled"]

/-- The editor of a value.  Of a selection without a selected option the first one counts. -/
def openEditor (kind : EditorKind) (value : JsValue) : Editor :=
  let policy := kind.read value
  .opened (if policy.mode ∈ kind.modes then policy.mode else kind.modes.headD "")
    (textInput policy.timezone) policy.windows

end EditorKind

/-! ## What is asked -/

namespace Editor

/-- Is a day one that the window of another day is copied to? -/
def isTargetOf (editor : Editor) (source other : EditorWeekday) : Bool :=
  (editor.fields other).copyTarget && other ≠ source

/-- What is asked of clearing a day, and of copying one. -/
def Keeps (editor : Editor) : EditorAction → Prop
  | .clearDay weekday =>
    ((editor.step (.clearDay weekday)).fields weekday).entered = (false, "", "") ∧
      ∀ other, other ≠ weekday →
        (editor.step (.clearDay weekday)).fields other = editor.fields other
  | .copyFrom weekday => ∀ other,
    if editor.isTargetOf weekday other then
      ((editor.step (.copyFrom weekday)).fields other).entered = (editor.fields weekday).entered
    else (editor.step (.copyFrom weekday)).fields other = editor.fields other
  | _ => True

/-- When an action keeps what it is asked to: the list holds what is entered for the other
days; or all days that are not copied to have a window or are not enabled, and either the
copied day has a window or none of the others has one. -/
def KeepsWhen (editor : Editor) : EditorAction → Prop
  | .clearDay weekday => ∀ other, other ≠ weekday →
    (editor.fields other).entered =
      (DayFields.showing (existing editor.windows other) false).entered
  | .copyFrom weekday =>
    (∀ other, ¬ editor.isTargetOf weekday other → (editor.fields other).isSettled) ∧
      ((editor.fields weekday).isComplete ∨
        ∀ other, editor.isTargetOf weekday other → ¬ (editor.fields other).isComplete)
  | _ => True

/-- The inputs of a day hold times, and nothing when it is not enabled. -/
def Clean (editor : Editor) : Prop := ∀ weekday, (editor.fields weekday).Clean

end Editor

/-! ## Fields of windows -/

@[simp] theorem timeInput_timeInput (text : String) : timeInput (timeInput text) = timeInput text := by
  unfold timeInput
  by_cases h : isTimeString text
  · rw [if_pos h, if_pos h]
  · rw [if_neg h]
    rfl

@[simp] theorem timeInput_empty : timeInput "" = "" := rfl

theorem text_inj {a b : EditorWeekday} (h : a.text = b.text) : a = b := by
  cases a <;> cases b <;> first | rfl | exact absurd h (by decide)

theorem mem_editorWeekdays (weekday : EditorWeekday) : weekday ∈ editorWeekdays := by
  cases weekday <;> decide

namespace DayFields

theorem clean_sync {fields : DayFields} (hstart : timeInput fields.start = fields.start)
    (hfinish : timeInput fields.finish = fields.finish) : fields.sync.Clean := by
  unfold sync
  by_cases henabled : fields.enabled = true
  · rw [if_pos henabled]
    exact ⟨hstart, hfinish, fun hnot => by simp [henabled] at hnot⟩
  · rw [if_neg henabled]
    exact ⟨rfl, rfl, fun _ => ⟨rfl, rfl⟩⟩

theorem clean_showing (existing : Option WeeklyEditorWindow) (copyTarget : Bool) :
    (DayFields.showing existing copyTarget).Clean :=
  clean_sync (timeInput_timeInput _) (timeInput_timeInput _)

@[simp] theorem copyTarget_showing (existing : Option WeeklyEditorWindow) (copyTarget : Bool) :
    (DayFields.showing existing copyTarget).copyTarget = copyTarget := by
  unfold showing sync
  split <;> rfl

/-- What is shown of a window does not depend on the mark beside it. -/
theorem entered_showing (existing : Option WeeklyEditorWindow) (copyTarget copyTarget' : Bool) :
    (DayFields.showing existing copyTarget).entered = (DayFields.showing existing copyTarget').entered := by
  unfold showing sync
  split <;> rfl

theorem ext_entered {a b : DayFields} (hentered : a.entered = b.entered)
    (htarget : a.copyTarget = b.copyTarget) : a = b := by
  obtain ⟨enabled, start, finish, target⟩ := a
  obtain ⟨enabled', start', finish', target'⟩ := b
  simp only [entered, Prod.mk.injEq] at hentered
  obtain ⟨rfl, rfl, rfl⟩ := hentered
  obtain rfl := htarget
  rfl

@[simp] theorem showing_none (copyTarget : Bool) :
    DayFields.showing none copyTarget = ⟨false, "", "", copyTarget⟩ := rfl

theorem enabled_of_isComplete {fields : DayFields} (h : fields.isComplete = true) :
    fields.enabled = true := by
  simp only [isComplete, Bool.and_eq_true] at h
  exact h.1.1

/-- A window of clean fields is shown as it is. -/
theorem showing_some {fields : DayFields} (hclean : fields.Clean) (hcomplete : fields.isComplete = true)
    (weekday : String) (copyTarget : Bool) :
    DayFields.showing (some ⟨weekday, fields.start, fields.finish⟩) copyTarget =
      { fields with copyTarget } := by
  have henabled := enabled_of_isComplete hcomplete
  unfold showing sync
  simp [hclean.start, hclean.finish, henabled]

/-- The inputs of a day show its window again exactly when it has one or is not enabled. -/
theorem showing_window?_iff {fields : DayFields} (hclean : fields.Clean) (weekday : EditorWeekday) :
    DayFields.showing (fields.window? weekday) fields.copyTarget = fields ↔ fields.isSettled = true := by
  unfold window? isSettled
  by_cases hcomplete : fields.isComplete = true
  · rw [if_pos hcomplete, showing_some hclean hcomplete, hcomplete]
    simp
  · rw [if_neg hcomplete, showing_none, eq_false_of_ne_true hcomplete, Bool.false_or,
      Bool.not_eq_true']
    constructor
    · intro heq
      rw [← heq]
    · intro hnot
      obtain ⟨hstart, hfinish⟩ := hclean.empty hnot
      exact ext_entered (by simp [entered, hnot, hstart, hfinish]) rfl

end DayFields

/-! ## The first window of a day -/

namespace Editor

theorem existing_filterMap {windowOf : EditorWeekday → Option WeeklyEditorWindow}
    (hwindow : ∀ weekday, ∀ window ∈ windowOf weekday, window.weekday = weekday.text)
    (weekday : EditorWeekday) (weekdays : List EditorWeekday) :
    existing (weekdays.filterMap windowOf) weekday =
      if weekday ∈ weekdays then windowOf weekday else none := by
  induction weekdays with
  | nil => rfl
  | cons first rest ih =>
      rw [existing] at ih ⊢
      cases hfirst : windowOf first with
      | none =>
          rw [List.filterMap_cons_none hfirst, ih]
          by_cases hsame : weekday = first
          · simp [hsame, hfirst]
          · simp [hsame]
      | some window =>
          have htext := hwindow first window hfirst
          rw [List.filterMap_cons_some hfirst, List.find?_cons]
          by_cases hsame : weekday = first
          · simp [hsame, htext, hfirst]
          · have hne : ¬ window.weekday = weekday.text := fun heq =>
              hsame (text_inj (heq.symm.trans htext))
            simp [hne, hsame, ih]

/-- The window that is read for a day. -/
theorem existing_readWindowsFromFields (editor : Editor) (weekday : EditorWeekday) :
    existing editor.readWindowsFromFields weekday = (editor.fields weekday).window? weekday := by
  rw [readWindowsFromFields, existing_filterMap, if_pos (mem_editorWeekdays weekday)]
  intro weekday window hwindow
  unfold DayFields.window? at hwindow
  by_cases hcomplete : (editor.fields weekday).isComplete = true
  · rw [if_pos hcomplete, Option.mem_some_iff] at hwindow
    rw [← hwindow]
  · rw [if_neg hcomplete] at hwindow
    cases hwindow

theorem existing_clearDayWindow_self (windows : List WeeklyEditorWindow) (weekday : EditorWeekday) :
    existing (clearDayWindow windows weekday.text) weekday = none := by
  rw [existing, clearDayWindow, List.find?_eq_none]
  intro window hwindow
  simpa using (List.mem_filter.mp hwindow).2

theorem existing_filter {windows : List WeeklyEditorWindow} {keep : WeeklyEditorWindow → Bool}
    {weekday : EditorWeekday} (hkeep : ∀ window, window.weekday = weekday.text → keep window = true) :
    existing (windows.filter keep) weekday = existing windows weekday := by
  rw [existing, existing, List.find?_filter]
  congr 1
  funext window
  by_cases hday : window.weekday = weekday.text
  · simp [hday, hkeep window hday]
  · simp [hday]

theorem existing_clearDayWindow (windows : List WeeklyEditorWindow) {weekday other : EditorWeekday}
    (hne : other ≠ weekday) :
    existing (clearDayWindow windows weekday.text) other = existing windows other := by
  refine existing_filter fun window hwindow => ?_
  rw [decide_eq_true_eq, hwindow]
  exact fun heq => hne (text_inj heq)

/-- The first window of a day after a copy. -/
theorem existing_copyWindowToDays (windows : List WeeklyEditorWindow) (source : EditorWeekday)
    (targets : List EditorWeekday) (other : EditorWeekday) :
    existing (copyWindowToDays windows source.text (targets.map (·.text))) other =
      match existing windows source with
      | none => existing windows other
      | some window =>
        if other ∈ targets ∧ other ≠ source then some ⟨other.text, window.start, window.finish⟩
        else existing windows other := by
  unfold copyWindowToDays
  rw [existing.eq_def windows source]
  cases hsource : windows.find? fun window => window.weekday = source.text with
  | none => rfl
  | some window =>
      dsimp only
      have hmem : other.text ∈ distinct ((targets.map (·.text)).filter (· ≠ source.text)) ↔
          other ∈ targets ∧ other ≠ source := by
        simp only [mem_distinct, List.mem_filter, List.mem_map, decide_eq_true_eq]
        constructor
        · rintro ⟨⟨target, htarget, heq⟩, hne⟩
          exact ⟨text_inj heq ▸ htarget, fun hsame => hne (hsame ▸ rfl)⟩
        · rintro ⟨htarget, hne⟩
          exact ⟨⟨other, htarget, rfl⟩, fun heq => hne (text_inj heq)⟩
      generalize distinct ((targets.map (·.text)).filter (· ≠ source.text)) = copied at hmem
      rw [existing, List.find?_append]
      by_cases htarget : other ∈ targets ∧ other ≠ source
      · -- no window of the day is kept, and one is added
        rw [if_pos htarget, List.find?_eq_none.mpr, Option.none_or]
        · have hfind : copied.find? (fun weekday => weekday = other.text) = some other.text := by
            have hsome : (copied.find? fun weekday => weekday = other.text).isSome = true :=
              List.find?_isSome.mpr ⟨other.text, hmem.mpr htarget, decide_eq_true_eq.mpr rfl⟩
            obtain ⟨weekday, hfound⟩ := Option.isSome_iff_exists.mp hsome
            have hsame := List.find?_some hfound
            rw [decide_eq_true_eq] at hsame
            rw [hfound, hsame]
          rw [List.find?_map]
          have hcomp : ((fun window : WeeklyEditorWindow => decide (window.weekday = other.text)) ∘
              fun weekday => ⟨weekday, window.start, window.finish⟩) =
              fun weekday => decide (weekday = other.text) := rfl
          rw [hcomp, hfind]
          rfl
        · intro kept hkept
          have hnot := of_decide_eq_true (List.mem_filter.mp hkept).2
          rw [decide_eq_true_eq]
          exact fun heq => hnot (heq ▸ hmem.mpr htarget)
      · rw [if_neg htarget]
        have hkept : existing (windows.filter fun window => window.weekday ∉ copied) other =
            existing windows other :=
          existing_filter fun window hwindow => by
            rw [decide_eq_true_eq, hwindow]
            exact fun hcopied => htarget (hmem.mp hcopied)
        have hnone : (copied.map fun weekday =>
            (⟨weekday, window.start, window.finish⟩ : WeeklyEditorWindow)).find?
              (fun window => window.weekday = other.text) = none := by
          rw [List.find?_eq_none]
          intro added hadded
          obtain ⟨weekday, hweekday, rfl⟩ := List.mem_map.mp hadded
          rw [decide_eq_true_eq]
          exact fun heq => htarget (hmem.mp (heq ▸ hweekday))
        rw [existing] at hkept
        rw [hkept, hnone, Option.or_none]

/-! ## One action -/

theorem mem_targets {editor : Editor} {weekday : EditorWeekday} :
    weekday ∈ editor.targets ↔ (editor.fields weekday).copyTarget = true := by
  rw [targets, List.mem_filter]
  exact and_iff_right (mem_editorWeekdays weekday)

theorem clean_applyWindowsToFields (editor : Editor) : editor.applyWindowsToFields.Clean :=
  fun _ => DayFields.clean_showing _ _

theorem clean_setFields {editor : Editor} (hclean : editor.Clean) (weekday : EditorWeekday)
    {fields : DayFields} (hfields : fields.Clean) : (editor.setFields weekday fields).Clean := by
  intro other
  change (Function.update editor.fields weekday fields other).Clean
  by_cases hsame : other = weekday
  · rw [hsame, Function.update_self]
    exact hfields
  · rw [Function.update_of_ne hsame]
    exact hclean other

/-- Every action leaves clean inputs. -/
theorem clean_step {editor : Editor} (hclean : editor.Clean) (action : EditorAction) :
    (editor.step action).Clean := by
  cases action with
  | setStart weekday text =>
      obtain ⟨-, hfinish, -⟩ := hclean weekday
      unfold step
      dsimp only
      by_cases henabled : (editor.fields weekday).enabled = true
      · rw [if_pos henabled]
        exact clean_setFields hclean weekday
          ⟨timeInput_timeInput text, hfinish, fun hnot => absurd henabled (ne_true_of_eq_false hnot)⟩
      · rw [if_neg henabled]
        exact hclean
  | setEnd weekday text =>
      obtain ⟨hstart, -, -⟩ := hclean weekday
      unfold step
      dsimp only
      by_cases henabled : (editor.fields weekday).enabled = true
      · rw [if_pos henabled]
        exact clean_setFields hclean weekday
          ⟨hstart, timeInput_timeInput text, fun hnot => absurd henabled (ne_true_of_eq_false hnot)⟩
      · rw [if_neg henabled]
        exact hclean
  | setEnabled weekday checked =>
      exact clean_setFields hclean weekday
        (DayFields.clean_sync (hclean weekday).start (hclean weekday).finish)
  | setCopyTarget weekday checked =>
      exact clean_setFields hclean weekday
        ⟨(hclean weekday).start, (hclean weekday).finish, (hclean weekday).empty⟩
  | clearDay weekday => exact clean_applyWindowsToFields _
  | copyFrom weekday => exact clean_applyWindowsToFields _
  | clearWeek => exact clean_applyWindowsToFields _

theorem fields_clearDay (editor : Editor) (weekday other : EditorWeekday) :
    (editor.step (.clearDay weekday)).fields other =
      .showing (existing (clearDayWindow editor.windows weekday.text) other)
        (editor.fields other).copyTarget := rfl

theorem clearDay_keeps_iff (editor : Editor) (weekday : EditorWeekday) :
    editor.Keeps (.clearDay weekday) ↔ editor.KeepsWhen (.clearDay weekday) := by
  simp only [Keeps, KeepsWhen, fields_clearDay, existing_clearDayWindow_self, DayFields.showing_none,
    DayFields.entered, true_and]
  refine forall_congr' fun other => forall_congr' fun hne => ?_
  rw [existing_clearDayWindow editor.windows hne]
  constructor
  · intro heq
    have hentered := congrArg DayFields.entered heq
    rw [DayFields.entered_showing _ _ false] at hentered
    exact hentered.symm
  · intro hentered
    refine DayFields.ext_entered ?_ (DayFields.copyTarget_showing _ _)
    rw [DayFields.entered_showing _ _ false]
    exact hentered.symm

/-- The inputs of a day after a copy. -/
theorem fields_copyFrom (editor : Editor) (weekday other : EditorWeekday) :
    (editor.step (.copyFrom weekday)).fields other =
      .showing (if (editor.fields weekday).isComplete ∧ editor.isTargetOf weekday other then
          some ⟨other.text, (editor.fields weekday).start, (editor.fields weekday).finish⟩
        else (editor.fields other).window? other) (editor.fields other).copyTarget := by
  have hexisting := existing_copyWindowToDays editor.readWindowsFromFields weekday editor.targets other
  simp only [existing_readWindowsFromFields, mem_targets] at hexisting
  change DayFields.showing (existing (copyWindowToDays editor.readWindowsFromFields weekday.text
    (editor.targets.map (·.text))) other) _ = _
  rw [hexisting, isTargetOf]
  unfold DayFields.window?
  by_cases hcomplete : (editor.fields weekday).isComplete = true
  · simp [hcomplete]
  · simp [hcomplete]

theorem copyFrom_keeps_iff {editor : Editor} (hclean : editor.Clean) (weekday : EditorWeekday) :
    editor.Keeps (.copyFrom weekday) ↔ editor.KeepsWhen (.copyFrom weekday) := by
  have hself : ¬ editor.isTargetOf weekday weekday = true := by simp [isTargetOf]
  simp only [Keeps, KeepsWhen, fields_copyFrom]
  constructor
  · intro hkeeps
    have hsettled : ∀ other, ¬ editor.isTargetOf weekday other = true →
        (editor.fields other).isSettled = true := by
      intro other htarget
      have hother := hkeeps other
      rw [if_neg htarget, if_neg fun h => htarget h.2] at hother
      exact (DayFields.showing_window?_iff (hclean other) other).mp hother
    refine ⟨hsettled, ?_⟩
    by_cases hcomplete : (editor.fields weekday).isComplete = true
    · exact .inl hcomplete
    · -- a day that is not enabled is copied to one that has a window
      refine .inr fun other htarget hwindow => ?_
      have hother := hkeeps other
      rw [if_pos htarget, if_neg fun h => hcomplete h.1, DayFields.window?, if_pos hwindow,
        DayFields.showing_some (hclean other) hwindow] at hother
      have hnot : (editor.fields weekday).enabled = false := by
        simpa [DayFields.isSettled, hcomplete] using hsettled weekday hself
      have henabled : (editor.fields other).enabled = true := DayFields.enabled_of_isComplete hwindow
      simp [DayFields.entered, hnot, henabled] at hother
  · intro ⟨hsettled, hcopied⟩ other
    by_cases htarget : editor.isTargetOf weekday other = true
    · rw [if_pos htarget]
      by_cases hcomplete : (editor.fields weekday).isComplete = true
      · rw [if_pos ⟨hcomplete, htarget⟩, DayFields.showing_some (hclean weekday) hcomplete]
        rfl
      · have hnot : (editor.fields weekday).enabled = false := by
          simpa [DayFields.isSettled, hcomplete] using hsettled weekday hself
        obtain ⟨hstart, hfinish⟩ := (hclean weekday).empty hnot
        rw [if_neg fun h => hcomplete h.1, DayFields.window?,
          if_neg (hcopied.resolve_left hcomplete other htarget), DayFields.showing_none]
        simp [DayFields.entered, hnot, hstart, hfinish]
    · rw [if_neg htarget, if_neg fun h => htarget h.2,
        DayFields.showing_window?_iff (hclean other)]
      exact hsettled other htarget

/-- An action keeps what it is asked to when the condition holds, and only then. -/
theorem keeps_iff {editor : Editor} (hclean : editor.Clean) (action : EditorAction) :
    editor.Keeps action ↔ editor.KeepsWhen action := by
  cases action with
  | clearDay weekday => exact clearDay_keeps_iff editor weekday
  | copyFrom weekday => exact copyFrom_keeps_iff hclean weekday
  | _ => exact Iff.rfl

/-- A session: actions one after the other. -/
def act (editor : Editor) (action : EditorAction) : Option Editor := some (editor.step action)

end Editor

/-- **When a session keeps what is asked**: in every session with either editor, from every
value that it is opened on, all actions do what they are asked to exactly when each of them
meets the condition where it is taken. -/
theorem editor_keeps_iff (kind : EditorKind) (value : JsValue) (actions : List EditorAction) :
    Protocol.Allowed Editor.act Editor.Keeps (kind.openEditor value) actions ↔
      Protocol.Allowed Editor.act Editor.KeepsWhen (kind.openEditor value) actions := by
  have hstep : ∀ {editor : Editor} {action : EditorAction} {editor' : Editor}, editor.Clean →
      editor.act action = some editor' → editor'.Clean := by
    intro editor action editor' hclean hact
    obtain rfl := Option.some.inj hact
    exact Editor.clean_step hclean action
  have hclean : (kind.openEditor value).Clean := Editor.clean_applyWindowsToFields _
  exact Protocol.allowed_congr (fun action h => Editor.keeps_iff h action) hstep hclean actions

/-! ## A lost edit -/

/-- The machine runs on Monday and Tuesday. -/
def twoDays : JsValue :=
  .obj [("mode", .str "scheduled"), ("timezone", .str "America/Sao_Paulo"),
    ("weeklySchedule", .obj [("windows", .arr [
      .obj [("dayOfWeek", .str "monday"), ("start", .str "09:00"), ("end", .str "17:00")],
      .obj [("dayOfWeek", .str "tuesday"), ("start", .str "09:00"), ("end", .str "17:00")]])])]

/-- On Tuesday the machine is to start at ten o'clock, and on Monday not at all. -/
def editThenClear : List EditorAction := [.setStart .tuesday "10:00", .clearDay .monday]

/-- The start that was entered for Tuesday is lost when Monday is cleared. -/
theorem not_keeps_editThenClear :
    ¬ Protocol.Allowed Editor.act Editor.Keeps (EditorKind.machine.openEditor twoDays)
      editThenClear := by
  intro ⟨_, hrest⟩
  have hclear := (hrest _ rfl).1.2 .tuesday (by decide)
  have hstart := congrArg DayFields.start hclear
  revert hstart
  decide +kernel

end AtlasManager.Dashboard
