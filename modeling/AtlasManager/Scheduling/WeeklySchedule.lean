import AtlasManager.Scheduling.Policy
import AtlasManager.Lib.Js

/-!
# AtlasManager.Scheduling.WeeklySchedule

Weekly schedules from values of unknown type, and the documents they are kept in.

* `createWeeklyAvailabilitySchedule` -- checks the windows, sorts them and rejects
  those that overlap;
* `createWeeklyAvailabilitySchedule_toJs` -- the windows of a schedule read back
  as the schedule;
* `isChain_sortWindows_iff` -- it is enough to look at neighbours in the sorted list;
* `SchedulesWindows` -- what is asked of a constructor of schedules.
-/

namespace AtlasManager.Scheduling

open AtlasManager.Lib

/-! ## Words -/

def serviceScheduleWeekdays : List ServiceScheduleWeekday :=
  [.monday, .tuesday, .wednesday, .thursday, .friday, .saturday, .sunday]

def ServiceScheduleWeekday.text : ServiceScheduleWeekday → String
  | monday => "monday"
  | tuesday => "tuesday"
  | wednesday => "wednesday"
  | thursday => "thursday"
  | friday => "friday"
  | saturday => "saturday"
  | sunday => "sunday"

def createServiceScheduleWeekday : JsValue → Option ServiceScheduleWeekday :=
  oneOf serviceScheduleWeekdays ServiceScheduleWeekday.text

/-- The text `HH:mm` of a local time. -/
def localTimeText (time : ServiceScheduleLocalTime) : String :=
  String.ofList (pad 2 (time / 60) ++ ':' :: pad 2 (time % 60))

/-- The local time that a text `HH:mm` denotes. -/
def createServiceScheduleLocalTime : JsValue → Option ServiceScheduleLocalTime :=
  oneOf (List.finRange 1440) localTimeText

theorem createServiceScheduleWeekday_text (weekday : ServiceScheduleWeekday) :
    createServiceScheduleWeekday (.str weekday.text) = some weekday := by
  cases weekday <;> decide

theorem localTimeText_inj {a b : ServiceScheduleLocalTime}
    (h : localTimeText a = localTimeText b) : a = b := by
  obtain ⟨hhours, hminutes⟩ := List.append_inj (String.ofList_injective h) (by simp)
  have hhour := pad_inj (w := 2) (by omega) (by omega) hhours
  have hminute := pad_inj (w := 2) (by omega) (by omega) (List.cons.inj hminutes).2
  exact Fin.ext (by omega)

theorem createServiceScheduleLocalTime_text (time : ServiceScheduleLocalTime) :
    createServiceScheduleLocalTime (.str (localTimeText time)) = some time :=
  oneOf_text (fun _ _ => localTimeText_inj) (List.mem_finRange time)

/-! ## Windows -/

namespace WeeklyAvailabilityWindow

def toJs (window : WeeklyAvailabilityWindow) : JsValue :=
  .obj [("weekday", .str window.weekday.text), ("start", .str (localTimeText window.start)),
    ("end", .str (localTimeText window.finish))]

end WeeklyAvailabilityWindow

def createWeeklyAvailabilityWindow (input : JsValue) : Option WeeklyAvailabilityWindow := do
  let fields ← input.asRecord
  guard (fields.length = 3 ∧ ["weekday", "start", "end"].all (hasOwn fields))
  let weekday ← createServiceScheduleWeekday (field fields "weekday")
  let start ← createServiceScheduleLocalTime (field fields "start")
  let finish ← createServiceScheduleLocalTime (field fields "end")
  if ordered : start < finish then return ⟨weekday, start, finish, ordered⟩ else none

@[simp] theorem createWeeklyAvailabilityWindow_toJs (window : WeeklyAvailabilityWindow) :
    createWeeklyAvailabilityWindow window.toJs = some window := by
  have hweekday := createServiceScheduleWeekday_text window.weekday
  have hstart := createServiceScheduleLocalTime_text window.start
  have hfinish := createServiceScheduleLocalTime_text window.finish
  change (do
    let weekday ← createServiceScheduleWeekday (.str window.weekday.text)
    let start ← createServiceScheduleLocalTime (.str (localTimeText window.start))
    let finish ← createServiceScheduleLocalTime (.str (localTimeText window.finish))
    if ordered : start < finish then
      return (⟨weekday, start, finish, ordered⟩ : WeeklyAvailabilityWindow) else none) = _
  rw [hweekday, hstart, hfinish]
  exact dif_pos window.ordered

/-! ## Schedules -/

/-- The order of the windows of a schedule. -/
def compareWindows (left right : WeeklyAvailabilityWindow) : Ordering :=
  (compare left.weekday.order right.weekday.order).then <|
  (compare left.start right.start).then <| compare left.finish right.finish

/-- Does no window start before the one in front of it has ended? -/
def NotOverlapping (previous current : WeeklyAvailabilityWindow) : Prop :=
  ¬ (previous.weekday = current.weekday ∧ current.start < previous.finish)

instance (previous current : WeeklyAvailabilityWindow) :
    Decidable (NotOverlapping previous current) :=
  inferInstanceAs (Decidable (¬ _))

def sortWindows (windows : List WeeklyAvailabilityWindow) : List WeeklyAvailabilityWindow :=
  windows.mergeSort fun left right => compareWindows left right ≠ .gt

theorem order_inj {a b : ServiceScheduleWeekday} (h : a.order = b.order) : a = b := by
  cases a <;> cases b <;> first | rfl | cases h

/-- The windows are compared by their days, then by their starts, then by their ends. -/
theorem compareWindows_ne_gt {a b : WeeklyAvailabilityWindow} :
    compareWindows a b ≠ .gt ↔ a.weekday.order < b.weekday.order ∨
      a.weekday.order = b.weekday.order ∧
        (a.start < b.start ∨ a.start = b.start ∧ a.finish ≤ b.finish) := by
  unfold compareWindows
  rcases lt_trichotomy a.weekday.order b.weekday.order with hday | hday | hday
  · simp [compare_lt_iff_lt.mpr hday, hday]
  · rcases lt_trichotomy a.start b.start with hstart | hstart | hstart
    · simp [hday, compare_lt_iff_lt.mpr hstart, hstart]
    · simp [hday, hstart, compare_gt_iff_gt]
    · simp [hday, compare_gt_iff_gt.mpr hstart, hstart.not_gt, hstart.ne']
  · simp [compare_gt_iff_gt.mpr hday, hday.not_gt, hday.ne']

/-- Windows in this order that do not overlap stand one before the other. -/
theorem before_of_compare {a b : WeeklyAvailabilityWindow} (h : compareWindows a b ≠ .gt)
    (hoverlap : NotOverlapping a b) : a.Before b := by
  rcases compareWindows_ne_gt.mp h with hlt | ⟨heq, -⟩
  · exact .inl hlt
  · have hday := order_inj heq
    exact .inr ⟨hday, not_lt.mp fun hlt => hoverlap ⟨hday, hlt⟩⟩

theorem compare_of_before {a b : WeeklyAvailabilityWindow} (h : a.Before b) :
    compareWindows a b ≠ .gt := by
  rw [compareWindows_ne_gt]
  rcases h with hlt | ⟨hday, hle⟩
  · exact .inl hlt
  · exact .inr ⟨congrArg _ hday, .inl (a.ordered.trans_le hle)⟩

theorem before_trans {a b c : WeeklyAvailabilityWindow} (hab : a.Before b) (hbc : b.Before c) :
    a.Before c := by
  rcases hab with hab | ⟨hab, hle⟩
  · rcases hbc with hbc | ⟨hbc, -⟩
    · exact .inl (hab.trans hbc)
    · exact .inl (hbc ▸ hab)
  · rcases hbc with hbc | ⟨hbc, hle'⟩
    · exact .inl (hab ▸ hbc)
    · exact .inr ⟨hab.trans hbc, hle.trans (b.ordered.le.trans hle')⟩

/-- Each window of a schedule stands before all those behind it. -/
theorem pairwise_before_of_isChain {windows : List WeeklyAvailabilityWindow}
    (h : windows.IsChain WeeklyAvailabilityWindow.Before) :
    windows.Pairwise WeeklyAvailabilityWindow.Before := by
  have : Trans WeeklyAvailabilityWindow.Before WeeklyAvailabilityWindow.Before
      WeeklyAvailabilityWindow.Before := ⟨before_trans⟩
  exact List.isChain_iff_pairwise.mp h

/-- The windows of a schedule are sorted. -/
theorem sortWindows_of_isChain {windows : List WeeklyAvailabilityWindow}
    (h : windows.IsChain WeeklyAvailabilityWindow.Before) : sortWindows windows = windows := by
  refine List.mergeSort_of_pairwise ?_
  exact (pairwise_before_of_isChain h).imp fun hbefore => by
    simpa using compare_of_before hbefore

theorem pairwise_sortWindows (windows : List WeeklyAvailabilityWindow) :
    (sortWindows windows).Pairwise fun a b => compareWindows a b ≠ .gt := by
  have hsorted : (sortWindows windows).Pairwise fun left right =>
      decide (compareWindows left right ≠ .gt) = true := by
    refine List.pairwise_mergeSort ?_ ?_ windows
    · intro a b c hab hbc
      simp only [decide_eq_true_eq, compareWindows_ne_gt, Fin.lt_def, Fin.le_def, Fin.ext_iff] at *
      omega
    · intro a b
      simp only [Bool.or_eq_true, decide_eq_true_eq, compareWindows_ne_gt, Fin.lt_def, Fin.le_def,
        Fin.ext_iff]
      omega
  exact hsorted.imp fun h => of_decide_eq_true h

/-- Sorted windows that do not overlap make a schedule. -/
theorem isChain_sortWindows {windows : List WeeklyAvailabilityWindow}
    (h : (sortWindows windows).IsChain NotOverlapping) :
    (sortWindows windows).IsChain WeeklyAvailabilityWindow.Before := by
  have hsorted := (pairwise_sortWindows windows).isChain
  generalize sortWindows windows = sorted at h hsorted
  induction sorted with
  | nil => exact .nil
  | cons a rest ih =>
      cases rest with
      | nil => exact .singleton a
      | cons b rest =>
          obtain ⟨hoverlap, hrest⟩ := List.isChain_cons_cons.mp h
          obtain ⟨hcompare, hsorted⟩ := List.isChain_cons_cons.mp hsorted
          exact List.isChain_cons_cons.mpr ⟨before_of_compare hcompare hoverlap, ih hrest hsorted⟩

/-- The schedule of the windows in an array; nobody looks at which check has failed. -/
def createWeeklyAvailabilitySchedule (windows : List JsValue) :
    Option WeeklyAvailabilitySchedule :=
  if hcount : 1 ≤ windows.length ∧ windows.length ≤ 64 then
    match hmap : windows.mapM createWeeklyAvailabilityWindow with
    | none => none
    | some canonicalWindows =>
      if hoverlap : (sortWindows canonicalWindows).IsChain NotOverlapping then
        some {
          windows := sortWindows canonicalWindows
          count := by
            rw [sortWindows, List.length_mergeSort, ← length_of_mapM hmap]
            exact hcount
          ordered := isChain_sortWindows hoverlap }
      else none
  else none

theorem mapM_createWeeklyAvailabilityWindow (windows : List WeeklyAvailabilityWindow) :
    (windows.map WeeklyAvailabilityWindow.toJs).mapM createWeeklyAvailabilityWindow =
      some windows := by
  induction windows with
  | nil => rfl
  | cons window windows ih =>
      rw [List.map_cons, List.mapM_cons, createWeeklyAvailabilityWindow_toJs, ih]
      rfl

/-- **Round trip**: the windows of a schedule read back as the schedule. -/
@[simp] theorem createWeeklyAvailabilitySchedule_toJs (schedule : WeeklyAvailabilitySchedule) :
    createWeeklyAvailabilitySchedule (schedule.windows.map WeeklyAvailabilityWindow.toJs) =
      some schedule := by
  obtain ⟨windows, hcount, hordered⟩ := schedule
  have hsorted := sortWindows_of_isChain hordered
  have hoverlap : (sortWindows windows).IsChain NotOverlapping := by
    rw [hsorted]
    refine hordered.imp fun a b hbefore hsame => ?_
    rcases hbefore with hlt | ⟨-, hle⟩
    · rw [hsame.1] at hlt
      exact lt_irrefl _ hlt
    · exact absurd hsame.2 hle.not_gt
  unfold createWeeklyAvailabilitySchedule
  rw [dif_pos (by simpa using hcount)]
  split
  · next hmap =>
      rw [mapM_createWeeklyAvailabilityWindow] at hmap
      cases hmap
  · next canonicalWindows hmap =>
      obtain rfl : windows = canonicalWindows := by
        rw [mapM_createWeeklyAvailabilityWindow] at hmap
        exact Option.some.inj hmap
      rw [dif_pos hoverlap]
      simp only [hsorted]

/-! ## What is accepted -/

/-- Do two windows share a minute of a day? -/
def WeeklyAvailabilityWindow.Overlap (a b : WeeklyAvailabilityWindow) : Prop :=
  a.weekday = b.weekday ∧ ∃ time, (a.start ≤ time ∧ time < a.finish) ∧ b.start ≤ time ∧ time < b.finish

theorem overlap_iff {a b : WeeklyAvailabilityWindow} :
    a.Overlap b ↔ a.weekday = b.weekday ∧ a.start < b.finish ∧ b.start < a.finish := by
  refine and_congr_right fun _ => ⟨?_, ?_⟩
  · rintro ⟨time, ⟨hstart, hfinish⟩, hstart', hfinish'⟩
    exact ⟨hstart.trans_lt hfinish', hstart'.trans_lt hfinish⟩
  · -- the later one of the two starts is in both
    intro ⟨hab, hba⟩
    exact ⟨max a.start b.start, ⟨le_max_left _ _, max_lt a.ordered hba⟩, le_max_right _ _,
      max_lt hab b.ordered⟩

/-- Two windows do not overlap when one stands before the other. -/
theorem not_overlap_iff {a b : WeeklyAvailabilityWindow} :
    ¬ a.Overlap b ↔ a.Before b ∨ b.Before a := by
  rw [overlap_iff, WeeklyAvailabilityWindow.Before, WeeklyAvailabilityWindow.Before]
  by_cases hday : a.weekday = b.weekday
  · simp only [hday, true_and, lt_self_iff_false, false_or, not_and_or, not_lt]
    exact or_comm
  · have hne : a.weekday.order ≠ b.weekday.order := fun heq => hday (order_inj heq)
    simp only [hday, Ne.symm hday, false_and, not_false_eq_true, or_false, true_iff]
    omega

theorem not_overlap_symm {a b : WeeklyAvailabilityWindow} (h : ¬ a.Overlap b) : ¬ b.Overlap a :=
  not_overlap_iff.mpr (not_overlap_iff.mp h).symm

theorem sortWindows_perm (windows : List WeeklyAvailabilityWindow) :
    (sortWindows windows).Perm windows := List.mergeSort_perm _ _

/-- Windows that are not apart in the order are the same. -/
theorem eq_of_compareWindows {a b : WeeklyAvailabilityWindow} (hab : compareWindows a b ≠ .gt)
    (hba : compareWindows b a ≠ .gt) : a = b := by
  obtain ⟨day, start, finish, ordered⟩ := a
  obtain ⟨day', start', finish', ordered'⟩ := b
  simp only [compareWindows_ne_gt, Fin.lt_def, Fin.le_def, Fin.ext_iff] at hab hba
  obtain rfl : day = day' := order_inj (by omega)
  obtain rfl : start = start' := Fin.ext (by omega)
  obtain rfl : finish = finish' := Fin.ext (by omega)
  rfl

/-- Windows sort in one way only. -/
theorem sortWindows_eq_of_perm {windows windows' : List WeeklyAvailabilityWindow}
    (h : windows.Perm windows') : sortWindows windows = sortWindows windows' := by
  have hperm : (sortWindows windows).Perm (sortWindows windows') :=
    (sortWindows_perm windows).trans (h.trans (sortWindows_perm windows').symm)
  exact hperm.eq_of_pairwise (fun a b _ _ hab hba => eq_of_compareWindows hab hba)
    (pairwise_sortWindows windows) (pairwise_sortWindows windows')

/-- **Neighbours are enough**: no neighbours of the sorted list overlap exactly when no two
windows do. -/
theorem isChain_sortWindows_iff {windows : List WeeklyAvailabilityWindow} :
    (sortWindows windows).IsChain NotOverlapping ↔
      windows.Pairwise fun a b => ¬ a.Overlap b := by
  have hperm : (sortWindows windows).Pairwise (fun a b => ¬ a.Overlap b) ↔
      windows.Pairwise fun a b => ¬ a.Overlap b :=
    (sortWindows_perm windows).pairwise_iff fun h => not_overlap_symm h
  rw [← hperm]
  constructor
  · intro h
    exact (pairwise_before_of_isChain (isChain_sortWindows h)).imp fun hbefore =>
      not_overlap_iff.mpr (.inl hbefore)
  · intro h
    have hboth := (h.and (pairwise_sortWindows windows)).isChain
    refine hboth.imp fun a b ⟨hdisjoint, hcompare⟩ hsame => hdisjoint ?_
    -- `a` starts no later than `b`, so `b` starts within it
    rw [overlap_iff]
    have hle : a.start ≤ b.start := by
      simp only [compareWindows_ne_gt, hsame.1, Fin.lt_def, Fin.le_def, Fin.ext_iff] at hcompare ⊢
      omega
    exact ⟨hsame.1, hle.trans_lt b.ordered, hsame.2⟩

/-- A record of the three fields of a window and no other, the day under this name. -/
def IsWindow (dayField : String) (input : JsValue) (window : WeeklyAvailabilityWindow) : Prop :=
  ∃ fields, input = .obj fields ∧
    fields.Perm [(dayField, .str window.weekday.text), ("start", .str (localTimeText window.start)),
      ("end", .str (localTimeText window.finish))]

/-- **What is asked of a constructor of schedules**: it accepts so many windows as a schedule
may have, all of them valid and no two of them overlapping, and gives them sorted, in
whichever order they come. -/
structure SchedulesWindows (dayField : String)
    (create : List JsValue → Option WeeklyAvailabilitySchedule) : Prop where
  accepts : ∀ inputs, (create inputs).isSome ↔ (1 ≤ inputs.length ∧ inputs.length ≤ 64) ∧
    ∃ windows, List.Forall₂ (IsWindow dayField) inputs windows ∧
      windows.Pairwise fun a b => ¬ a.Overlap b
  sorts : ∀ inputs schedule, create inputs = some schedule →
    ∃ windows, List.Forall₂ (IsWindow dayField) inputs windows ∧ schedule.windows.Perm windows ∧
      schedule.windows.Pairwise fun a b => compareWindows a b ≠ .gt
  independent : ∀ inputs inputs', inputs.Perm inputs' → create inputs = create inputs'

theorem mapM_eq_some_iff {α β : Type} {f : α → Option β} {as : List α} {bs : List β} :
    as.mapM f = some bs ↔ List.Forall₂ (fun a b => f a = some b) as bs := by
  constructor
  · intro h
    induction as generalizing bs with
    | nil =>
        obtain rfl := Option.some.inj h
        exact .nil
    | cons a as ih =>
        obtain ⟨b, rest, hb, hrest, rfl⟩ := mapM_cons_some h
        exact .cons hb (ih hrest)
  · intro h
    induction h with
    | nil => rfl
    | cons hb _ ih =>
        rw [List.mapM_cons, hb, ih]
        rfl

/-- Constructors that sort valid windows and look at neighbours do what is asked of them. -/
theorem schedulesWindows_of_eq_some {dayField : String}
    {create : List JsValue → Option WeeklyAvailabilitySchedule}
    (hcreate : ∀ inputs schedule, create inputs = some schedule ↔
      (1 ≤ inputs.length ∧ inputs.length ≤ 64) ∧
        ∃ windows, List.Forall₂ (IsWindow dayField) inputs windows ∧
          (sortWindows windows).IsChain NotOverlapping ∧ schedule.windows = sortWindows windows) :
    SchedulesWindows dayField create := by
  refine ⟨fun inputs => ?_, fun inputs schedule hschedule => ?_, ?_⟩
  · rw [Option.isSome_iff_exists]
    constructor
    · rintro ⟨schedule, hschedule⟩
      obtain ⟨hcount, windows, hwindows, hchain, -⟩ := (hcreate _ _).mp hschedule
      exact ⟨hcount, windows, hwindows, isChain_sortWindows_iff.mp hchain⟩
    · rintro ⟨hcount, windows, hwindows, hdisjoint⟩
      have hchain := isChain_sortWindows_iff.mpr hdisjoint
      have hlength : (sortWindows windows).length = inputs.length := by
        rw [sortWindows, List.length_mergeSort, hwindows.length_eq]
      exact ⟨⟨sortWindows windows, by rw [hlength]; exact hcount, isChain_sortWindows hchain⟩,
        (hcreate _ _).mpr ⟨hcount, windows, hwindows, hchain, rfl⟩⟩
  · obtain ⟨-, windows, hwindows, -, hsorted⟩ := (hcreate _ _).mp hschedule
    rw [hsorted]
    exact ⟨windows, hwindows, sortWindows_perm _, pairwise_sortWindows _⟩
  · -- one direction is enough
    have hle : ∀ {inputs inputs' : List JsValue} {schedule : WeeklyAvailabilitySchedule},
        inputs.Perm inputs' → create inputs = some schedule → create inputs' = some schedule := by
      intro inputs inputs' schedule hperm hschedule
      obtain ⟨hcount, windows, hwindows, hchain, hsorted⟩ := (hcreate _ _).mp hschedule
      obtain ⟨windows', hwindows', hpermWindows⟩ := List.perm_comp_forall₂ hperm.symm hwindows
      have hsame := sortWindows_eq_of_perm hpermWindows
      exact (hcreate _ _).mpr ⟨hperm.length_eq ▸ hcount, windows', hwindows', hsame ▸ hchain,
        hsame ▸ hsorted⟩
    intro inputs inputs' hperm
    exact Option.ext fun schedule => ⟨hle hperm, hle hperm.symm⟩

/-- A window with its day under this name. -/
theorem isWindow_iff {dayField : String} (hnames : [dayField, "start", "end"].Nodup)
    {input : JsValue} {window : WeeklyAvailabilityWindow} :
    IsWindow dayField input window ↔ ∃ fields, input = .obj fields ∧
      (fields.length = 3 ∧ [dayField, "start", "end"].all (hasOwn fields) = true) ∧
      createServiceScheduleWeekday (field fields dayField) = some window.weekday ∧
      createServiceScheduleLocalTime (field fields "start") = some window.start ∧
      createServiceScheduleLocalTime (field fields "end") = some window.finish := by
  constructor
  · rintro ⟨fields, rfl, hperm⟩
    have hnodup : (fields.map Prod.fst).Nodup := (hperm.map Prod.fst).nodup_iff.mpr hnames
    have hlookup := fun name value (h : (name, value) ∈ fields) => lookup_of_mem hnodup h
    have hday := hlookup _ _ (hperm.mem_iff.mpr (List.mem_cons_self))
    have hstart := hlookup "start" _ (hperm.mem_iff.mpr (List.mem_cons_of_mem _ List.mem_cons_self))
    have hfinish := hlookup "end" _ (hperm.mem_iff.mpr
      (List.mem_cons_of_mem _ (List.mem_cons_of_mem _ List.mem_cons_self)))
    refine ⟨fields, rfl, ⟨hperm.length_eq, ?_⟩, ?_, ?_, ?_⟩
    · simp [hasOwn, hday, hstart, hfinish]
    · rw [field, hday]
      exact createServiceScheduleWeekday_text _
    · rw [field, hstart]
      exact createServiceScheduleLocalTime_text _
    · rw [field, hfinish]
      exact createServiceScheduleLocalTime_text _
  · rintro ⟨fields, rfl, ⟨hlength, hown⟩, hday, hstart, hfinish⟩
    refine ⟨fields, rfl, ?_⟩
    have hperm := perm_of_exactFields hnames hlength hown
    simp only [List.map_cons, List.map_nil, text_of_oneOf hday, text_of_oneOf hstart,
      text_of_oneOf hfinish] at hperm
    exact hperm

theorem guard_eq_some {p : Prop} [Decidable p] {u : Unit} : (guard p : Option Unit) = some u ↔ p := by
  by_cases h : p <;> simp [guard, h]

theorem createWeeklyAvailabilityWindow_eq_some (input : JsValue) (window : WeeklyAvailabilityWindow) :
    createWeeklyAvailabilityWindow input = some window ↔ IsWindow "weekday" input window := by
  rw [isWindow_iff (by decide)]
  cases input with
  | obj fields =>
      obtain ⟨day, start, finish, ordered⟩ := window
      simp only [createWeeklyAvailabilityWindow, JsValue.asRecord, Option.bind_eq_bind,
        Option.bind_some, Option.bind_eq_some_iff, JsValue.obj.injEq, exists_eq_left',
        guard_eq_some]
      constructor
      · rintro ⟨-, hexact, day', hday, start', hstart, finish', hfinish, hwindow⟩
        by_cases hordered : start' < finish'
        · rw [dif_pos hordered] at hwindow
          obtain ⟨rfl, rfl, rfl⟩ := WeeklyAvailabilityWindow.mk.inj (Option.some.inj hwindow)
          exact ⟨hexact, hday, hstart, hfinish⟩
        · rw [dif_neg hordered] at hwindow
          cases hwindow
      · intro ⟨hexact, hday, hstart, hfinish⟩
        exact ⟨(), hexact, day, hday, start, hstart, finish, hfinish, dif_pos ordered⟩
  | _ => simp [createWeeklyAvailabilityWindow, JsValue.asRecord]

theorem mapM_createWeeklyAvailabilityWindow_eq_some {inputs : List JsValue}
    {windows : List WeeklyAvailabilityWindow} :
    inputs.mapM createWeeklyAvailabilityWindow = some windows ↔
      List.Forall₂ (IsWindow "weekday") inputs windows := by
  rw [mapM_eq_some_iff]
  simp only [createWeeklyAvailabilityWindow_eq_some]

theorem createWeeklyAvailabilitySchedule_eq_some (inputs : List JsValue)
    (schedule : WeeklyAvailabilitySchedule) :
    createWeeklyAvailabilitySchedule inputs = some schedule ↔
      (1 ≤ inputs.length ∧ inputs.length ≤ 64) ∧
        ∃ windows, List.Forall₂ (IsWindow "weekday") inputs windows ∧
          (sortWindows windows).IsChain NotOverlapping ∧ schedule.windows = sortWindows windows := by
  obtain ⟨scheduled, hscheduled, hordered⟩ := schedule
  simp only [← mapM_createWeeklyAvailabilityWindow_eq_some]
  unfold createWeeklyAvailabilitySchedule
  by_cases hcount : 1 ≤ inputs.length ∧ inputs.length ≤ 64
  · rw [dif_pos hcount]
    split
    · next hmap => simp [hmap]
    · next windows hmap =>
        by_cases hoverlap : (sortWindows windows).IsChain NotOverlapping
        · simp [hmap, hoverlap, hcount, eq_comm]
        · simp [hmap, hoverlap]
  · simp [hcount]

theorem schedulesWindows_createWeeklyAvailabilitySchedule :
    SchedulesWindows "weekday" createWeeklyAvailabilitySchedule :=
  schedulesWindows_of_eq_some createWeeklyAvailabilitySchedule_eq_some

end AtlasManager.Scheduling
