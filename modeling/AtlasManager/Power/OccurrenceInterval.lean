import AtlasManager.Lib.Grid
import AtlasManager.Power.MachineOperatingPolicy
import AtlasManager.Power.ShutdownRecords
import AtlasManager.Scheduling.Policy

/-!
# AtlasManager.Power.OccurrenceInterval

The shutdown occurrences that a weekly operating schedule has in an interval.

* `createMachineShutdownOccurrencesForInterval` -- one for every end of an
  operating time;
* `occurrences_bounds` -- they lie in the interval;
* `occurrences_pairwise` -- one is over, a minute at least, before the next is due;
* `occurrences_append` -- the interval can be cut at any instant;
* `executable_pairwise` -- so at most one can be executed at a time.
-/

namespace AtlasManager.Power

open AtlasManager.Lib AtlasManager.Scheduling

/-! ## Operating times -/

/-- Eight days, in milliseconds. -/
def horizon : Int := 8 * 24 * 60 * 60000

def isOperating (zone : Zone) (schedule : MachineWeeklyOperatingSchedule) (timestamp : Int) : Bool :=
  isInsideWindow schedule (zone timestamp)

/-! ## Occurrences -/

inductive MachineShutdownOccurrenceIntervalErrorCode where
  | reversedInterval
  | intervalTooLarge
  | searchExhausted
  /-- an instant beyond the range of dates -/
  | invalidDate
  deriving DecidableEq, Repr

section Interval

variable (zone : Zone) (schedule : MachineWeeklyOperatingSchedule)

/-- Does an operating time start at a minute? -/
def startsOperating (candidate : Int) : Bool :=
  !isOperating zone schedule (candidate - 60000) && isOperating zone schedule candidate

/-- Does an operating time end at a minute? -/
def stopsOperating (candidate : Int) : Bool :=
  isOperating zone schedule (candidate - 60000) && !isOperating zone schedule candidate

def findNextOperatingStart (start limit : Int) : Option Int :=
  (minutesUpTo (start + 60000) limit).find? (startsOperating zone schedule)

/-- The occurrence of the operating time that ends at a minute. -/
def occurrenceAt (candidate : Int) :
    Except MachineShutdownOccurrenceIntervalErrorCode MachineShutdownOccurrence := do
  let some wake := findNextOperatingStart zone schedule candidate (candidate + horizon)
    | throw .searchExhausted
  let some scheduledFor := Timestamp.ofMs? candidate | throw .invalidDate
  let some wakeScheduledFor := Timestamp.ofMs? wake | throw .invalidDate
  if h : scheduledFor.ms < wakeScheduledFor.ms then return ⟨scheduledFor, wakeScheduledFor, h⟩
  else throw .invalidDate

end Interval

def createMachineShutdownOccurrencesForInterval (zone : Zone) (policy : MachineOperatingPolicy)
    (completedThrough tickedThrough : Timestamp) :
    Except MachineShutdownOccurrenceIntervalErrorCode (List MachineShutdownOccurrence) :=
  let lower := completedThrough.ms
  let upper := tickedThrough.ms
  if upper < lower then .error .reversedInterval
  else if upper - lower > horizon then .error .intervalTooLarge
  else
    match policy with
    | .scheduled schedule =>
      if upper = lower then .ok []
      else
        let first := lower / 60000 * 60000 + 60000
        ((minutesUpTo first upper).filter (stopsOperating zone schedule)).mapM
          (occurrenceAt zone schedule)
    | _ => .ok []

/-! ## Where they lie -/

section Facts

variable {zone : Zone} {schedule : MachineWeeklyOperatingSchedule}

theorem occurrenceAt_eq_ok {candidate : Int} {occurrence : MachineShutdownOccurrence}
    (h : occurrenceAt zone schedule candidate = .ok occurrence) :
    occurrence.scheduledFor.ms = candidate ∧
      findNextOperatingStart zone schedule candidate (candidate + horizon) =
        some occurrence.wakeScheduledFor.ms := by
  unfold occurrenceAt at h
  cases hwake : findNextOperatingStart zone schedule candidate (candidate + horizon) with
  | none => simp [hwake, throw, throwThe, MonadExceptOf.throw] at h
  | some wake =>
      cases hs : Timestamp.ofMs? candidate with
      | none => simp [hwake, hs, throw, throwThe, MonadExceptOf.throw] at h
      | some scheduledFor =>
          cases hw : Timestamp.ofMs? wake with
          | none => simp [hwake, hs, hw, throw, throwThe, MonadExceptOf.throw] at h
          | some wakeScheduledFor =>
              simp only [hwake, hs, hw] at h
              split at h
              · obtain rfl := Except.ok.inj h
                rw [Timestamp.ofMs?_eq_some] at hs hw
                exact ⟨hs, by rw [hw]⟩
              · cases h

/-- A time that does not operate at first and does later starts to operate in between. -/
theorem exists_startsOperating (start : Int) (n : Nat)
    (hstart : isOperating zone schedule start = false)
    (hend : isOperating zone schedule (start + 60000 * n) = true) :
    ∃ k : Nat, 1 ≤ k ∧ k ≤ n ∧ startsOperating zone schedule (start + 60000 * k) = true := by
  induction n with
  | zero => simp [hstart] at hend
  | succ n ih =>
      cases hmid : isOperating zone schedule (start + 60000 * n) with
      | true =>
          obtain ⟨k, hk, hkn, hstarts⟩ := ih hmid
          exact ⟨k, hk, by omega, hstarts⟩
      | false =>
          refine ⟨n + 1, by omega, le_refl _, ?_⟩
          have hprevious : start + 60000 * ((n + 1 : Nat) : Int) - 60000 = start + 60000 * n := by
            push_cast
            omega
          rw [startsOperating, hprevious, hmid, hend]
          rfl

/-- The next operating time starts before the one after it ends. -/
theorem findNextOperatingStart_le {start limit stop wake : Int}
    (hfind : findNextOperatingStart zone schedule start limit = some wake)
    (hstart : stopsOperating zone schedule start = true)
    (hstop : stopsOperating zone schedule stop = true) (hlt : start < stop)
    (hgrid : (stop - start) % 60000 = 0) (hlimit : stop ≤ limit) : wake ≤ stop - 60000 := by
  simp only [stopsOperating, Bool.and_eq_true, Bool.not_eq_true'] at hstart hstop
  obtain ⟨n, hn⟩ : ∃ n : Nat, stop - 60000 = start + 60000 * n :=
    ⟨((stop - start) / 60000 - 1).toNat, by omega⟩
  have hoperating : isOperating zone schedule (start + 60000 * n) = true := by
    rw [← hn]
    exact hstop.1
  obtain ⟨k, hk, hkn, hstarts⟩ := exists_startsOperating start n hstart.2 hoperating
  have hleast := (find?_minutesUpTo.mp hfind).2.2 (start + 60000 * k)
    (mem_minutesUpTo.mpr (by omega)) hstarts
  omega

/-- A list of occurrences, one for each of the candidates, on one grid of minutes. -/
theorem pairwise_of_forall₂ {candidates : List Int}
    {occurrences : List MachineShutdownOccurrence}
    (h : List.Forall₂ (fun candidate occurrence =>
      occurrenceAt zone schedule candidate = .ok occurrence) candidates occurrences)
    (hsorted : candidates.Pairwise fun a b => a < b ∧ (b - a) % 60000 = 0 ∧ b ≤ a + horizon)
    (hstops : ∀ candidate ∈ candidates, stopsOperating zone schedule candidate = true) :
    occurrences.Pairwise fun a b => a.wakeScheduledFor.ms ≤ b.scheduledFor.ms - 60000 := by
  induction h with
  | nil => exact .nil
  | @cons candidate occurrence candidates occurrences hone hrest ih =>
      obtain ⟨hfirst, hsorted⟩ := List.pairwise_cons.mp hsorted
      refine List.pairwise_cons.mpr ⟨?_, ih hsorted fun c hc => hstops c (List.mem_cons_of_mem _ hc)⟩
      intro later hlater
      obtain ⟨stop, hmem, hstop⟩ := exists_of_mem_forall₂ hrest hlater
      obtain ⟨hlt, hgrid, hlimit⟩ := hfirst stop hmem
      rw [(occurrenceAt_eq_ok hstop).1]
      exact findNextOperatingStart_le (occurrenceAt_eq_ok hone).2 (hstops _ List.mem_cons_self)
        (hstops _ (List.mem_cons_of_mem _ hmem)) hlt hgrid hlimit

variable {policy : MachineOperatingPolicy} {completedThrough tickedThrough : Timestamp}
  {occurrences : List MachineShutdownOccurrence}

/-- What an accepted interval holds. -/
theorem occurrences_cases
    (h : createMachineShutdownOccurrencesForInterval zone policy completedThrough tickedThrough =
      .ok occurrences) :
    completedThrough.ms ≤ tickedThrough.ms ∧
      tickedThrough.ms - completedThrough.ms ≤ horizon ∧
      (occurrences = [] ∨ ∃ schedule, List.Forall₂ (fun candidate occurrence =>
          occurrenceAt zone schedule candidate = .ok occurrence)
        ((minutesUpTo (completedThrough.ms / 60000 * 60000 + 60000) tickedThrough.ms).filter
          (stopsOperating zone schedule)) occurrences) := by
  unfold createMachineShutdownOccurrencesForInterval at h
  simp only at h
  split at h
  · cases h
  next horder =>
  split at h
  · cases h
  next hlength =>
  refine ⟨by omega, by omega, ?_⟩
  split at h
  · next schedule =>
      split at h
      · exact Or.inl (Except.ok.inj h).symm
      · exact Or.inr ⟨schedule, forall₂_of_mapM h⟩
  · exact Or.inl (Except.ok.inj h).symm

/-- Occurrences lie in the interval, its start left out. -/
theorem occurrences_bounds
    (h : createMachineShutdownOccurrencesForInterval zone policy completedThrough tickedThrough =
      .ok occurrences) {occurrence : MachineShutdownOccurrence} (hmem : occurrence ∈ occurrences) :
    completedThrough.ms < occurrence.scheduledFor.ms ∧
      occurrence.scheduledFor.ms ≤ tickedThrough.ms := by
  obtain ⟨-, -, rfl | ⟨schedule, hall⟩⟩ := occurrences_cases h
  · exact absurd hmem List.not_mem_nil
  obtain ⟨candidate, hcandidate, hoccurrence⟩ := exists_of_mem_forall₂ hall hmem
  have hvisited := mem_minutesUpTo.mp (List.mem_of_mem_filter hcandidate)
  rw [(occurrenceAt_eq_ok hoccurrence).1]
  omega

/-- **One occurrence at a time.**  An occurrence is over, a minute at least, before
the next one is due. -/
theorem occurrences_pairwise
    (h : createMachineShutdownOccurrencesForInterval zone policy completedThrough tickedThrough =
      .ok occurrences) :
    occurrences.Pairwise fun a b => a.wakeScheduledFor.ms ≤ b.scheduledFor.ms - 60000 := by
  obtain ⟨-, hlength, rfl | ⟨schedule, hall⟩⟩ := occurrences_cases h
  · exact .nil
  refine pairwise_of_forall₂ hall ?_ fun candidate hc => (List.mem_filter.mp hc).2
  have hsorted := (pairwise_minutesUpTo (completedThrough.ms / 60000 * 60000 + 60000)
    tickedThrough.ms).filter (stopsOperating zone schedule)
  refine hsorted.imp_of_mem fun {a b} ha hb hlt => ?_
  have ha := mem_minutesUpTo.mp (List.mem_of_mem_filter ha)
  have hb := mem_minutesUpTo.mp (List.mem_of_mem_filter hb)
  refine ⟨hlt, by omega, ?_⟩
  unfold horizon at *
  omega

/-- The occurrences of an admitted interval, an empty one included. -/
theorem occurrences_scheduled_eq {a b : Timestamp} (hle : a.ms ≤ b.ms)
    (hlength : b.ms - a.ms ≤ horizon) :
    createMachineShutdownOccurrencesForInterval zone (.scheduled schedule) a b =
      ((minutesUpTo (a.ms / 60000 * 60000 + 60000) b.ms).filter
        (stopsOperating zone schedule)).mapM (occurrenceAt zone schedule) := by
  unfold createMachineShutdownOccurrencesForInterval
  simp only
  rw [if_neg (by omega), if_neg (by omega)]
  split
  · have hnone : minutesUpTo (a.ms / 60000 * 60000 + 60000) b.ms = [] := by
      rw [List.eq_nil_iff_forall_not_mem]
      intro m hm
      rw [mem_minutesUpTo] at hm
      omega
    rw [hnone]
    rfl
  · rfl

theorem occurrences_unscheduled_eq {a b : Timestamp} (hle : a.ms ≤ b.ms)
    (hlength : b.ms - a.ms ≤ horizon) (hpolicy : ∀ schedule, policy ≠ .scheduled schedule) :
    createMachineShutdownOccurrencesForInterval zone policy a b = .ok [] := by
  unfold createMachineShutdownOccurrencesForInterval
  rw [if_neg (by omega), if_neg (by omega)]
  cases policy with
  | scheduled schedule => exact absurd rfl (hpolicy schedule)
  | alwaysOn => rfl
  | manual => rfl

/-- **Cutting an interval** at any instant loses and repeats no occurrence; where
one part has no answer, the whole has none. -/
theorem occurrences_append (zone : Zone) (policy : MachineOperatingPolicy) {a b c : Timestamp}
    (hab : a.ms ≤ b.ms) (hbc : b.ms ≤ c.ms) (hlength : c.ms - a.ms ≤ horizon) :
    createMachineShutdownOccurrencesForInterval zone policy a c = (do
      let before ← createMachineShutdownOccurrencesForInterval zone policy a b
      let after ← createMachineShutdownOccurrencesForInterval zone policy b c
      return before ++ after) := by
  by_cases hpolicy : ∃ schedule, policy = .scheduled schedule
  · obtain ⟨schedule, rfl⟩ := hpolicy
    rw [occurrences_scheduled_eq (by omega) hlength, occurrences_scheduled_eq hab (by omega),
      occurrences_scheduled_eq hbc (by omega), ← List.mapM_append, ← List.filter_append,
      minutesUpTo_append (by omega) (by omega) (by omega) (by omega) hbc]
  · push Not at hpolicy
    rw [occurrences_unscheduled_eq (by omega) hlength hpolicy,
      occurrences_unscheduled_eq hab (by omega) hpolicy,
      occurrences_unscheduled_eq hbc (by omega) hpolicy]
    rfl

end Facts

/-! ## Which one can be executed -/

/-- Neither not due nor stale. -/
def MachineShutdownOccurrence.ExecutableAt (occurrence : MachineShutdownOccurrence)
    (processedAt : Timestamp) : Prop :=
  occurrence.scheduledFor.ms ≤ processedAt.ms ∧ processedAt.ms < occurrence.wakeScheduledFor.ms

instance (occurrence : MachineShutdownOccurrence) (processedAt : Timestamp) :
    Decidable (occurrence.ExecutableAt processedAt) :=
  inferInstanceAs (Decidable (_ ∧ _))

/-- The occurrences before one that can be executed cannot. -/
theorem executable_pairwise {occurrences : List MachineShutdownOccurrence}
    (h : occurrences.Pairwise fun a b => a.wakeScheduledFor.ms ≤ b.scheduledFor.ms - 60000)
    (processedAt : Timestamp) :
    occurrences.Pairwise fun a b => ¬ (a.ExecutableAt processedAt ∧ b.ExecutableAt processedAt) := by
  refine h.imp fun hle hboth => ?_
  have hstale := hboth.1.2
  have hdue := hboth.2.1
  omega

theorem executable_length_le {zone : Zone} {policy : MachineOperatingPolicy}
    {completedThrough tickedThrough : Timestamp} {occurrences : List MachineShutdownOccurrence}
    (h : createMachineShutdownOccurrencesForInterval zone policy completedThrough tickedThrough =
      .ok occurrences) (processedAt : Timestamp) :
    (occurrences.filter fun occurrence => occurrence.ExecutableAt processedAt).length ≤ 1 := by
  have hone := (executable_pairwise (occurrences_pairwise h) processedAt).filter
    fun occurrence => decide (occurrence.ExecutableAt processedAt)
  have hall : ∀ occurrence ∈
      occurrences.filter fun occurrence => occurrence.ExecutableAt processedAt,
      occurrence.ExecutableAt processedAt :=
    fun _ hmem => of_decide_eq_true (List.mem_filter.mp hmem).2
  generalize occurrences.filter (fun occurrence => decide (occurrence.ExecutableAt processedAt)) =
    executable at hone hall
  cases executable with
  | nil => exact Nat.zero_le 1
  | cons a rest =>
      cases rest with
      | nil => exact le_refl 1
      | cons b rest =>
          have hnot := (List.pairwise_cons.mp hone).1 b List.mem_cons_self
          have hb := hall b (List.mem_cons_of_mem _ List.mem_cons_self)
          exact absurd ⟨hall a List.mem_cons_self, hb⟩ hnot

end AtlasManager.Power
