import AtlasManager.Lib.Grid
import AtlasManager.Scheduling.Policy

/-!
# AtlasManager.Scheduling.Transitions

The instants of an interval at which a scheduled policy changes its expectation.

* `transitions_mem` -- every transition lies in the interval, after its start;
* `transitions_pairwise` -- they are strictly increasing in time;
* `transitions_eq`, `transitions_alternate` -- they are the minutes at which the
  expectation changes, to and fro;
* `transitionsBetween_append` -- an interval can be cut at any minute.
-/

namespace AtlasManager.Scheduling

open AtlasManager.Lib

inductive TransitionKind where
  | becameAvailable
  | becameUnavailable
  deriving DecidableEq, Repr

structure ServiceAvailabilityPolicyTransition where
  kind : TransitionKind
  scheduledFor : Int
  deriving DecidableEq, Repr

inductive TransitionCalculationError where
  | invalidTransitionInterval
  | transitionIntervalNotMinuteAligned
  | transitionIntervalLimitExceeded
  deriving DecidableEq, Repr

/-- Eight days, in milliseconds. -/
def maximumInterval : Int := 8 * 24 * 60 * 60000

def validateInterval (fromExclusive toInclusive : Int) : Except TransitionCalculationError Unit :=
  if toInclusive ≤ fromExclusive then .error .invalidTransitionInterval
  else if fromExclusive % 60000 ≠ 0 ∨ toInclusive % 60000 ≠ 0 then
    .error .transitionIntervalNotMinuteAligned
  else if toInclusive - fromExclusive > maximumInterval then
    .error .transitionIntervalLimitExceeded
  else .ok ()

/-- The changes along a list of instants, from a first expectation on. -/
def changesAlong (expectationAt : Int → ServiceAvailabilityExpectation)
    (previous : ServiceAvailabilityExpectation) :
    List Int → List ServiceAvailabilityPolicyTransition
  | [] => []
  | instant :: instants =>
    let expectation := expectationAt instant
    if expectation ≠ previous then
      { kind := if expectation = .available then .becameAvailable else .becameUnavailable
        scheduledFor := instant } :: changesAlong expectationAt expectation instants
    else changesAlong expectationAt previous instants

def calculateServiceAvailabilityPolicyTransitions (zone : Zone)
    (policy : ServiceAvailabilityPolicy) (fromExclusive toInclusive : Int) :
    Except TransitionCalculationError (List ServiceAvailabilityPolicyTransition) :=
  match validateInterval fromExclusive toInclusive with
  | .error e => .error e
  | .ok () =>
    match policy with
    | .scheduled schedule =>
      let expectationAt := evaluateServiceAvailabilityPolicy zone (.scheduled schedule)
      .ok (changesAlong expectationAt (expectationAt fromExclusive)
        (minutesUpTo (fromExclusive + 60000) toInclusive))
    | _ => .ok []

theorem changesAlong_sublist (expectationAt : Int → ServiceAvailabilityExpectation)
    (previous : ServiceAvailabilityExpectation) (instants : List Int) :
    ((changesAlong expectationAt previous instants).map (·.scheduledFor)).Sublist instants := by
  induction instants generalizing previous with
  | nil => exact List.Sublist.slnil
  | cons instant instants ih =>
      simp only [changesAlong]
      split
      · exact (ih _).cons_cons instant
      · exact (ih _).cons instant

/-- The instants of the transitions are visited minutes of the interval. -/
theorem transitions_sublist {zone : Zone} {policy : ServiceAvailabilityPolicy}
    {fromExclusive toInclusive : Int} {transitions : List ServiceAvailabilityPolicyTransition}
    (h : calculateServiceAvailabilityPolicyTransitions zone policy fromExclusive toInclusive =
      .ok transitions) :
    (transitions.map (·.scheduledFor)).Sublist
      (minutesUpTo (fromExclusive + 60000) toInclusive) := by
  unfold calculateServiceAvailabilityPolicyTransitions at h
  split at h
  · simp at h
  · split at h
    · obtain rfl := Except.ok.inj h
      exact changesAlong_sublist _ _ _
    · obtain rfl := Except.ok.inj h
      simp

/-- **Transitions** lie after the start of their interval and not after its end. -/
theorem transitions_mem {zone : Zone} {policy : ServiceAvailabilityPolicy}
    {fromExclusive toInclusive : Int} {transitions : List ServiceAvailabilityPolicyTransition}
    (h : calculateServiceAvailabilityPolicyTransitions zone policy fromExclusive toInclusive =
      .ok transitions) :
    ∀ t ∈ transitions, fromExclusive < t.scheduledFor ∧ t.scheduledFor ≤ toInclusive := by
  intro t ht
  have hmem := (transitions_sublist h).subset (List.mem_map_of_mem ht)
  rw [mem_minutesUpTo] at hmem
  omega

/-- **Transitions** are listed in time order, each instant once. -/
theorem transitions_pairwise {zone : Zone} {policy : ServiceAvailabilityPolicy}
    {fromExclusive toInclusive : Int} {transitions : List ServiceAvailabilityPolicyTransition}
    (h : calculateServiceAvailabilityPolicyTransitions zone policy fromExclusive toInclusive =
      .ok transitions) :
    transitions.Pairwise fun a b => a.scheduledFor < b.scheduledFor :=
  List.pairwise_map.mp ((pairwise_minutesUpTo _ _).sublist (transitions_sublist h))

/-! ## What they are -/

/-- The transition at a minute, when the expectation differs from the minute before. -/
def changeAt (expectationAt : Int → ServiceAvailabilityExpectation) (instant : Int) :
    Option ServiceAvailabilityPolicyTransition :=
  if expectationAt instant ≠ expectationAt (instant - 60000) then
    some {
      kind := if expectationAt instant = .available then .becameAvailable else .becameUnavailable
      scheduledFor := instant }
  else none

/-- Minute by minute the expectation that is remembered is that of the minute before. -/
theorem changesAlong_eq_filterMap (expectationAt : Int → ServiceAvailabilityExpectation)
    (start : Int) (instants : List Int)
    (h : (start :: instants).IsChain fun a b => a = b - 60000) :
    changesAlong expectationAt (expectationAt start) instants =
      instants.filterMap (changeAt expectationAt) := by
  induction instants generalizing start with
  | nil => rfl
  | cons instant instants ih =>
      obtain ⟨hstart, hrest⟩ := List.isChain_cons_cons.mp h
      have hprevious : expectationAt (instant - 60000) = expectationAt start := by rw [hstart]
      rw [List.filterMap_cons, changesAlong, changeAt, hprevious]
      by_cases hchange : expectationAt instant ≠ expectationAt start
      · simp only [hchange, ne_eq, not_false_eq_true, if_true, ih instant hrest]
      · have hsame : expectationAt instant = expectationAt start := not_not.mp hchange
        rw [if_neg hchange, if_neg hchange, ← hsame]
        exact ih instant hrest

/-- The transitions of an admitted interval. -/
def transitionsBetween (zone : Zone) (policy : ServiceAvailabilityPolicy)
    (fromExclusive toInclusive : Int) : List ServiceAvailabilityPolicyTransition :=
  (minutesUpTo (fromExclusive + 60000) toInclusive).filterMap
    (changeAt (evaluateServiceAvailabilityPolicy zone policy))

/-- **Transitions** are the minutes at which the expectation changes. -/
theorem transitions_eq {zone : Zone} {policy : ServiceAvailabilityPolicy}
    {fromExclusive toInclusive : Int}
    (h : validateInterval fromExclusive toInclusive = .ok ()) :
    calculateServiceAvailabilityPolicyTransitions zone policy fromExclusive toInclusive =
      .ok (transitionsBetween zone policy fromExclusive toInclusive) := by
  have hnone : ∀ policy, (∀ schedule, policy ≠ ServiceAvailabilityPolicy.scheduled schedule) →
      transitionsBetween zone policy fromExclusive toInclusive = [] := by
    intro policy hpolicy
    refine List.filterMap_eq_nil_iff.mpr fun instant _ => if_neg (not_not.mpr ?_)
    cases policy with
    | scheduled schedule => exact absurd rfl (hpolicy schedule)
    | _ => rfl
  unfold calculateServiceAvailabilityPolicyTransitions
  rw [h]
  cases policy with
  | scheduled schedule =>
      have hchain := isChain_minutesBelow (fromExclusive + 60000) (toInclusive + 1)
      rw [show fromExclusive + 60000 - 60000 = fromExclusive by omega] at hchain
      exact congrArg Except.ok (changesAlong_eq_filterMap _ fromExclusive _ hchain)
  | always => rw [hnone .always (by simp)]
  | manual => rw [hnone .manual (by simp)]
  | disabled => rw [hnone .disabled (by simp)]

/-- Becoming available and becoming unavailable take turns. -/
theorem changesAlong_alternate {expectationAt : Int → ServiceAvailabilityExpectation}
    (htwo : ∀ instant, expectationAt instant = .available ∨ expectationAt instant = .unavailable)
    (start : Int) (instants : List Int) :
    ((if expectationAt start = .available then TransitionKind.becameAvailable
      else .becameUnavailable) ::
        (changesAlong expectationAt (expectationAt start) instants).map (·.kind)).IsChain
      (· ≠ ·) := by
  induction instants generalizing start with
  | nil => simp [changesAlong]
  | cons instant instants ih =>
      rw [changesAlong]
      by_cases hchange : expectationAt instant ≠ expectationAt start
      · rw [if_pos hchange, List.map_cons]
        refine List.isChain_cons_cons.mpr ⟨?_, ih instant⟩
        rcases htwo instant with h | h <;> rcases htwo start with h' | h' <;> simp_all
      · have hsame : expectationAt instant = expectationAt start := not_not.mp hchange
        rw [if_neg hchange, ← hsame]
        exact ih instant

/-- **Transitions** take turns. -/
theorem transitions_alternate {zone : Zone} {policy : ServiceAvailabilityPolicy}
    {fromExclusive toInclusive : Int} {transitions : List ServiceAvailabilityPolicyTransition}
    (h : calculateServiceAvailabilityPolicyTransitions zone policy fromExclusive toInclusive =
      .ok transitions) :
    (transitions.map (·.kind)).IsChain (· ≠ ·) := by
  unfold calculateServiceAvailabilityPolicyTransitions at h
  split at h
  · simp at h
  · split at h
    · obtain rfl := Except.ok.inj h
      refine (changesAlong_alternate (fun instant => ?_) _ _).tail
      simp only [evaluateServiceAvailabilityPolicy]
      split
      · exact Or.inl rfl
      · exact Or.inr rfl
    · obtain rfl := Except.ok.inj h
      exact List.IsChain.nil

theorem validateInterval_ok {fromExclusive toInclusive : Int} :
    validateInterval fromExclusive toInclusive = .ok () ↔ fromExclusive < toInclusive ∧
      fromExclusive % 60000 = 0 ∧ toInclusive % 60000 = 0 ∧
      toInclusive - fromExclusive ≤ maximumInterval := by
  unfold validateInterval
  split
  · simp only [reduceCtorEq, false_iff]
    omega
  · split
    · simp only [reduceCtorEq, false_iff]
      omega
    · split
      · simp only [reduceCtorEq, false_iff]
        omega
      · simp only [true_iff]
        omega

/-- **Transitions**: cutting an interval at a minute loses and repeats none. -/
theorem transitionsBetween_append {zone : Zone} {policy : ServiceAvailabilityPolicy} {a b c : Int}
    (hab : a ≤ b) (hbc : b ≤ c) (hgrid : (b - a) % 60000 = 0) :
    transitionsBetween zone policy a b ++ transitionsBetween zone policy b c =
      transitionsBetween zone policy a c := by
  unfold transitionsBetween
  rw [← List.filterMap_append, minutesUpTo_append (by omega) (by omega) (by omega) (by omega) hbc]

end AtlasManager.Scheduling
