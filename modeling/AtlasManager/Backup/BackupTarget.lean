import AtlasManager.Scheduling.Policy
import AtlasManager.Lib.Grid

/-!
# AtlasManager.Backup.BackupTarget

The registered targets of backups, and the occurrences that their schedules make
due between two instants.

* `BackupTarget` -- a target with its schedule, its retention and its limits;
* `dueOccurrences` -- the occurrences that the scheduler finds, minute by minute;
* `dueOccurrences_perm` -- these are all, unless there are more than it looks for.
-/

namespace AtlasManager.Backup

open AtlasManager.Lib AtlasManager.Scheduling

/-! ## Targets -/

inductive BackupTargetKind where
  | mock
  | filesystemTree
  deriving DecidableEq, Repr

/-- When a target is backed up.  There is one time zone. -/
inductive BackupSchedule where
  | manual
  | scheduled (schedule : WeeklyAvailabilitySchedule)
  | disabled
  deriving DecidableEq

structure BackupRetentionPolicy where
  keepLastSuccessful : Nat
  maxSuccessfulAgeDays : Option Nat
  count : 1 ≤ keepLastSuccessful ∧ keepLastSuccessful ≤ 100
  age : ∀ days ∈ maxSuccessfulAgeDays, 1 ≤ days ∧ days ≤ 3650
  deriving DecidableEq

structure BackupLimits where
  maxFiles : Nat
  maxTotalBytes : Nat
  maxFileBytes : Nat
  maxDepth : Nat
  maxRelativePathBytes : Nat
  deriving DecidableEq

structure BackupTarget where
  id : String
  displayName : String
  kind : BackupTargetKind
  sourcePath : Option String
  schedule : BackupSchedule
  retention : BackupRetentionPolicy
  limits : BackupLimits
  deriving DecidableEq

/-- A target that is backed up on Thursdays at midnight. -/
def docs : BackupTarget where
  id := "docs"
  displayName := "Documents"
  kind := .mock
  sourcePath := none
  schedule := .scheduled {
    windows := [⟨.thursday, 0, 60, by decide⟩]
    count := by decide
    ordered := List.isChain_singleton _ }
  retention := ⟨1, none, by decide, nofun⟩
  limits := ⟨1, 1, 1, 1, 1⟩

/-! ## Occurrences -/

/-- The minute that a wall clock shows which is at each instant `offset` milliseconds
ahead of UTC. -/
def wallMinute (offset : Int → Int) (instant : Int) : Int := (instant + offset instant) / 60000

/-- The time zone of a wall clock. -/
def wallClock (offset : Int → Int) : Zone := fun instant =>
  let minute := wallMinute offset instant
  { weekday := weekdayOfDay (minute / 1440)
    time := ⟨(minute % 1440).toNat, by omega⟩ }

structure BackupOccurrence where
  targetId : String
  scheduledFor : Timestamp
  deriving DecidableEq

section Due

variable (zone : Zone)

/-- Does a window of the schedule start at this minute? -/
def BackupTarget.isDue (target : BackupTarget) (instant : Int) : Bool :=
  match target.schedule with
  | .scheduled schedule =>
    schedule.windows.any fun window =>
      window.weekday = (zone instant).weekday ∧ window.start = (zone instant).time
  | _ => false

/-- The occurrences at one instant, in the order of the targets. -/
def dueAt (targets : List BackupTarget) (instant : Timestamp) : List BackupOccurrence :=
  targets.filterMap fun target =>
    if target.isDue zone instant.ms then some ⟨target.id, instant⟩ else none

/-- The instants that are looked at: the first one after `start`, and so on minute by minute. -/
def instantsBetween (start finish : Timestamp) : List Timestamp :=
  (minutesUpTo (start.ms + 1) finish.ms).filterMap Timestamp.ofMs?

/-- A tick handles at most so many occurrences. -/
def maximumOccurrences : Nat := 32

/-- The loop over the instants, which ends when enough has been found. -/
def collectDue (targets : List BackupTarget) :
    List Timestamp → List BackupOccurrence → List BackupOccurrence
  | [], result => result
  | instant :: instants, result =>
    if result.length < maximumOccurrences then
      collectDue targets instants (result ++ dueAt zone targets instant)
    else result

def compareOccurrences (localeCompare : String → String → Ordering)
    (left right : BackupOccurrence) : Ordering :=
  (localeCompare left.scheduledFor.text right.scheduledFor.text).then
    (localeCompare left.targetId right.targetId)

def dueOccurrences (localeCompare : String → String → Ordering) (targets : List BackupTarget)
    (start finish : Timestamp) : List BackupOccurrence :=
  (collectDue zone targets (instantsBetween start finish) []).mergeSort fun left right =>
    compareOccurrences localeCompare left right ≠ .gt

/-- All occurrences between two instants. -/
def occurrencesBetween (targets : List BackupTarget) (start finish : Timestamp) :
    List BackupOccurrence :=
  (instantsBetween start finish).flatMap (dueAt zone targets)

end Due

variable {zone : Zone} {targets : List BackupTarget} {start finish instant : Timestamp}
  {occurrence : BackupOccurrence}

theorem mem_dueAt : occurrence ∈ dueAt zone targets instant ↔
    occurrence.scheduledFor = instant ∧
      ∃ target ∈ targets, target.id = occurrence.targetId ∧ target.isDue zone instant.ms := by
  simp only [dueAt, List.mem_filterMap, Option.ite_none_right_eq_some, Option.some.injEq]
  constructor
  · rintro ⟨target, htarget, hdue, rfl⟩
    exact ⟨rfl, target, htarget, rfl, hdue⟩
  · rintro ⟨rfl, target, htarget, hid, hdue⟩
    exact ⟨target, htarget, hdue, by rw [hid]⟩

theorem mem_instantsBetween : instant ∈ instantsBetween start finish ↔
    start.ms < instant.ms ∧ instant.ms ≤ finish.ms ∧
      (instant.ms - (start.ms + 1)) % 60000 = 0 := by
  simp only [instantsBetween, List.mem_filterMap, Timestamp.ofMs?_eq_some, mem_minutesUpTo]
  constructor
  · rintro ⟨x, ⟨hle, hlast, hgrid⟩, rfl⟩
    exact ⟨by omega, hlast, hgrid⟩
  · rintro ⟨hlt, hlast, hgrid⟩
    exact ⟨instant.ms, ⟨by omega, hlast, hgrid⟩, rfl⟩

theorem mem_occurrencesBetween : occurrence ∈ occurrencesBetween zone targets start finish ↔
    occurrence.scheduledFor ∈ instantsBetween start finish ∧ ∃ target ∈ targets,
      target.id = occurrence.targetId ∧ target.isDue zone occurrence.scheduledFor.ms := by
  simp only [occurrencesBetween, List.mem_flatMap, mem_dueAt]
  constructor
  · rintro ⟨instant, hinstant, rfl, htarget⟩
    exact ⟨hinstant, htarget⟩
  · rintro ⟨hinstant, htarget⟩
    exact ⟨_, hinstant, rfl, htarget⟩

/-- The loop adds occurrences of the instants, and all of them if there are few enough. -/
theorem collectDue_spec (instants : List Timestamp) (result : List BackupOccurrence) :
    (collectDue zone targets instants result ⊆
        result ++ instants.flatMap (dueAt zone targets)) ∧
      ((result ++ instants.flatMap (dueAt zone targets)).length ≤ maximumOccurrences →
        collectDue zone targets instants result =
          result ++ instants.flatMap (dueAt zone targets)) := by
  induction instants generalizing result with
  | nil => exact ⟨by simp [collectDue], fun _ => by simp [collectDue]⟩
  | cons instant instants ih =>
      rw [collectDue, List.flatMap_cons, ← List.append_assoc]
      split
      · exact ih _
      · next hfull =>
          refine ⟨fun _ h => List.mem_append_left _ (List.mem_append_left _ h), fun hfew => ?_⟩
          -- the loop ends early only when nothing is left to be found
          simp only [List.length_append] at hfew
          have hdue : dueAt zone targets instant = [] := List.eq_nil_of_length_eq_zero (by omega)
          have hrest : instants.flatMap (dueAt zone targets) = [] :=
            List.eq_nil_of_length_eq_zero (by omega)
          rw [hdue, hrest, List.append_nil, List.append_nil]

/-- What is found is due. -/
theorem dueOccurrences_subset (localeCompare : String → String → Ordering) :
    dueOccurrences zone localeCompare targets start finish ⊆
      occurrencesBetween zone targets start finish := by
  intro occurrence hmem
  exact (collectDue_spec _ _).1 ((List.mergeSort_perm _ _).mem_iff.mp hmem)

/-- When few occurrences are due, all of them are found. -/
theorem dueOccurrences_perm (localeCompare : String → String → Ordering)
    (hfew : (occurrencesBetween zone targets start finish).length ≤ maximumOccurrences) :
    (dueOccurrences zone localeCompare targets start finish).Perm
      (occurrencesBetween zone targets start finish) := by
  have hall : collectDue zone targets (instantsBetween start finish) [] =
      occurrencesBetween zone targets start finish := (collectDue_spec _ []).2 hfew
  rw [dueOccurrences, hall]
  exact List.mergeSort_perm _ _

/-- A minute whose end lies between the instants is looked at. -/
theorem exists_instant_of_minute {minute : Int} (hstart : start.ms < minute + 59999)
    (hfinish : minute + 59999 ≤ finish.ms) :
    ∃ instant ∈ instantsBetween start finish,
      minute ≤ instant.ms ∧ instant.ms < minute + 60000 := by
  -- the first instant after the start when it lies in the minute, or else a later one
  have hfirst : ∃ ms : Int, start.ms < ms ∧ ms ≤ finish.ms ∧ (ms - (start.ms + 1)) % 60000 = 0 ∧
      minute ≤ ms ∧ ms < minute + 60000 := by
    rcases le_or_gt minute (start.ms + 1) with hle | hgt
    · exact ⟨start.ms + 1, by omega, by omega, by omega, hle, by omega⟩
    · exact ⟨minute + 59999 - (minute + 59999 - (start.ms + 1)) % 60000, by omega, by omega,
        by omega, by omega, by omega⟩
  obtain ⟨ms, hlt, hle, hgrid, hin, hout⟩ := hfirst
  obtain ⟨instant, hinstant⟩ := Timestamp.ofMs?_of_between (a := start) (b := finish) hlt.le hle
  obtain rfl : instant.ms = ms := Timestamp.ofMs?_eq_some.mp hinstant
  exact ⟨instant, mem_instantsBetween.mpr ⟨hlt, hle, hgrid⟩, hin, hout⟩

end AtlasManager.Backup
