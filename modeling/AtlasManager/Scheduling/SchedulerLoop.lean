import AtlasManager.Power.SchedulerTick
import AtlasManager.Service.ReconciliationCycle

/-!
# AtlasManager.Scheduling.SchedulerLoop

The loops that run a cycle, wait for a minute and run the next one: the service
reconciliation scheduler's and the machine power scheduler's.  They differ only
in what a cycle's result means.

* `Loop.step` -- what a loop does when it is started or stopped, when a timer
  fires and when a cycle has settled;
* `Inv`, `inv_step`, `inv_reachable` -- the invariant over the loop's flags;
* `loops_orderly` -- at every moment of every run there is at most one cycle in
  flight and one pending timer, no cycle starts late, and the completion is
  settled once.
-/

namespace AtlasManager.Scheduling

open AtlasManager.Power AtlasManager.Service

/-! ## Loops -/

inductive LoopFailure (E : Type) where
  | thrown (error : E)
  | invalidTickResult

inductive LoopCompletion (R E : Type) where
  | stopped
  /-- With the result of the last cycle. -/
  | ended (result : R)
  | failed (failure : LoopFailure E)

/-- A loop; `none` is the verdict that it goes on. -/
structure Loop (R E : Type) where
  verdict : R → Option (LoopCompletion R E)

/-- `ServiceAvailabilityReconciliationSchedulerLoop`. -/
def serviceAvailabilityReconciliationSchedulerLoop (E : Type) : Loop ReconciliationCycleResult E where
  verdict
    | .incomplete cursor report pruning claims =>
      some (.ended (.incomplete cursor report pruning claims))
    | .conflict cursor report pruning claims => some (.ended (.conflict cursor report pruning claims))
    | _ => none

/-- `MachinePowerSchedulerLoop`; what is not a result at all is `none`. -/
def machinePowerSchedulerLoop (E : Type) : Loop (Option MachinePowerSchedulerResult) E where
  verdict
    | none => some (.failed .invalidTickResult)
    | some (.blocked cursor tickedAt reason) => some (.ended (some (.blocked cursor tickedAt reason)))
    | some (.incomplete previous report claims) =>
      some (.ended (some (.incomplete previous report claims)))
    | some (.conflict previous attempted authoritative report claims) =>
      some (.ended (some (.conflict previous attempted authoritative report claims)))
    | some _ => none

section Step

variable {R E : Type}

/-- What happens around a loop; timers are known by their numbers. -/
inductive Entry (R E : Type) where
  | start
  | stop
  /-- A cycle has been started, and is in flight. -/
  | execute
  /-- A cycle that threw when it was started. -/
  | executeThrew (error : E)
  | settled (outcome : Except E R)
  | schedule (k : Nat)
  | scheduleThrew (error : E)
  | fired (k : Nat)
  | cancel (k : Nat)
  | cancelThrew (k : Nat) (error : E)
  | resolve (completion : LoopCompletion R E)

structure LoopState (R E : Type) where
  started : Bool := false
  stopRequested : Bool := false
  completed : Bool := false
  cycleInFlight : Bool := false
  pendingTimer : Option Nat := none
  /-- How many callbacks timers have been given. -/
  callbacks : Nat := 0
  /-- The callbacks whose `callbackConsumed` is set. -/
  consumed : List Nat := []
  /-- What has happened, the latest first. -/
  log : List (Entry R E) := []

namespace LoopState

def complete (completion : LoopCompletion R E) (s : LoopState R E) : LoopState R E :=
  if s.completed then s else { s with completed := true, log := .resolve completion :: s.log }

/-- `launch` is the error of a cycle that throws when it is started. -/
def runNextCycle (launch : Option E) (s : LoopState R E) : LoopState R E :=
  if s.completed || s.stopRequested || s.cycleInFlight then s
  else
    match launch with
    | none => { s with cycleInFlight := true, log := .execute :: s.log }
    | some error =>
      complete (.failed (.thrown error))
        { s with cycleInFlight := false, log := .executeThrew error :: s.log }

def start (launch : Option E) (s : LoopState R E) : LoopState R E :=
  if !s.started && !s.completed then
    runNextCycle launch { s with started := true, log := .start :: s.log }
  else { s with log := .start :: s.log }

/-- `cancel` is the error of a timer that cannot be cancelled. -/
def stop (cancel : Option E) (s : LoopState R E) : LoopState R E :=
  if s.completed then { s with log := .stop :: s.log }
  else
    let s := { s with stopRequested := true, log := .stop :: s.log }
    if !s.started then complete .stopped { s with started := true }
    else
      match s.pendingTimer with
      | some k =>
        match cancel with
        | none => complete .stopped { s with pendingTimer := none, log := .cancel k :: s.log }
        | some error =>
          complete (.failed (.thrown error))
            { s with pendingTimer := none, log := .cancelThrew k error :: s.log }
      | none => if !s.cycleInFlight then complete .stopped s else s

/-- `schedule` is the error of a timer that cannot be set; it may have taken the callback. -/
def scheduleNextCycle (schedule : Option E) (s : LoopState R E) : LoopState R E :=
  match schedule with
  | none =>
    { s with
      pendingTimer := some s.callbacks
      callbacks := s.callbacks + 1
      log := .schedule s.callbacks :: s.log }
  | some error =>
    complete (.failed (.thrown error))
      { s with callbacks := s.callbacks + 1, log := .scheduleThrew error :: s.log }

/-- The callback of a timer. -/
def fire (k : Nat) (launch : Option E) (s : LoopState R E) : LoopState R E :=
  let s := { s with log := .fired k :: s.log }
  if k ∈ s.consumed then s
  else
    let s := { s with consumed := k :: s.consumed, pendingTimer := none }
    if !s.completed && !s.stopRequested then runNextCycle launch s else s

end LoopState

/-- What can happen to a loop, with what its surroundings answer. -/
inductive LoopEvent (R E : Type) where
  | start (launch : Option E)
  | stop (cancel : Option E)
  | fire (k : Nat) (launch : Option E)
  | settle (outcome : Except E R) (schedule : Option E)

namespace Loop

variable (loop : Loop R E)

def handleCycleResult (result : R) (schedule : Option E) (s : LoopState R E) : LoopState R E :=
  match loop.verdict result with
  | some completion => s.complete completion
  | none => if s.stopRequested then s.complete .stopped else s.scheduleNextCycle schedule

/-- A cycle has settled. -/
def settle (outcome : Except E R) (schedule : Option E) (s : LoopState R E) : LoopState R E :=
  let s := { s with cycleInFlight := false, log := .settled outcome :: s.log }
  match outcome with
  | .ok result => loop.handleCycleResult result schedule s
  | .error error => s.complete (.failed (.thrown error))

def step (s : LoopState R E) : LoopEvent R E → LoopState R E
  | .start launch => s.start launch
  | .stop cancel => s.stop cancel
  | .fire k launch => s.fire k launch
  | .settle outcome schedule => loop.settle outcome schedule s

end Loop

/-! ## What a log says -/

namespace Entry

def isExecute : Entry R E → Bool
  | execute => true
  | _ => false

def isSettled : Entry R E → Bool
  | settled _ => true
  | _ => false

def isResolve : Entry R E → Bool
  | resolve _ => true
  | _ => false

def isStop : Entry R E → Bool
  | stop => true
  | _ => false

def startsCycle : Entry R E → Bool
  | execute => true
  | executeThrew _ => true
  | _ => false

def scheduled? : Entry R E → Option Nat
  | schedule k => some k
  | _ => none

/-- Has the timer fired, or has it been cancelled? -/
def ends (k : Nat) : Entry R E → Bool
  | fired k' => k = k'
  | cancel k' => k = k'
  | _ => false

end Entry

/-- How many cycles have been started and have not settled. -/
def cyclesInFlight (log : List (Entry R E)) : Nat :=
  log.countP (·.isExecute) - log.countP (·.isSettled)

/-- The timers that have been set, have not fired and have not been cancelled. -/
def pendingTimers (log : List (Entry R E)) : List Nat :=
  (log.filterMap (·.scheduled?)).filter fun k => !log.any (·.ends k)

/-- How often the completion has been settled. -/
def settlements (log : List (Entry R E)) : Nat := log.countP (·.isResolve)

/-- The states of a loop: it is started and stopped at any time, a cycle settles while it is in
flight, and a timer may call its callback at any time, even when it was cancelled, and again. -/
inductive Reachable (loop : Loop R E) : LoopState R E → Prop where
  | init : Reachable loop {}
  | start {s} (launch : Option E) : Reachable loop s → Reachable loop (loop.step s (.start launch))
  | stop {s} (cancel : Option E) : Reachable loop s → Reachable loop (loop.step s (.stop cancel))
  | fire {s k} (launch : Option E) : Reachable loop s → k < s.callbacks →
      Reachable loop (loop.step s (.fire k launch))
  | settle {s} (outcome : Except E R) (schedule : Option E) : Reachable loop s →
      0 < cyclesInFlight s.log → Reachable loop (loop.step s (.settle outcome schedule))

/-- What the log of a loop should say. -/
structure Orderly (log : List (Entry R E)) : Prop where
  oneCycle : cyclesInFlight log ≤ 1
  oneTimer : (pendingTimers log).length ≤ 1
  /-- The log is newest first: before a cycle was started there was no stop and no completion. -/
  noLateCycle : log.Pairwise fun later earlier =>
    later.startsCycle = true → earlier.isStop = false ∧ earlier.isResolve = false
  settledOnce : settlements log ≤ 1
  settledAfterStop : log.any (·.isStop) = true → cyclesInFlight log = 0 → settlements log = 1
  /-- A loop that was started and waits for nothing has settled its completion. -/
  settledAtRest : log ≠ [] → cyclesInFlight log = 0 → pendingTimers log = [] → settlements log = 1

/-! ## Entries that change nothing -/

section Proofs

variable {loop : Loop R E} {s : LoopState R E} {log : List (Entry R E)} {entry : Entry R E}

theorem mem_pendingTimers {k : Nat} : k ∈ pendingTimers log ↔
    k ∈ log.filterMap (·.scheduled?) ∧ log.any (·.ends k) = false := by
  simp [pendingTimers]

/-- What sets no timer can only end some. -/
theorem pendingTimers_cons (h : entry.scheduled? = none) :
    pendingTimers (entry :: log) = (pendingTimers log).filter fun k => !entry.ends k := by
  simp [pendingTimers, h, List.filter_filter]

theorem length_pendingTimers_cons_le (h : entry.scheduled? = none) :
    (pendingTimers (entry :: log)).length ≤ (pendingTimers log).length := by
  rw [pendingTimers_cons h]
  exact List.length_filter_le _ _

/-- The log agrees with the flags. -/
structure Books (s : LoopState R E) : Prop where
  cycles : s.log.countP (·.isExecute) = s.log.countP (·.isSettled) + s.cycleInFlight.toNat
  settlements : settlements s.log = s.completed.toNat
  stops : s.log.any (·.isStop) = true → s.stopRequested = true ∨ s.completed = true
  timers : ∀ k ∈ s.log.filterMap (·.scheduled?), k < s.callbacks
  distinct : (s.log.filterMap (·.scheduled?)).Nodup
  consumed : ∀ k ∈ s.consumed, s.log.any (·.ends k) = true
  ended : ∀ k, s.log.any (·.ends k) = true → k < s.callbacks
  oneTimer : (pendingTimers s.log).length ≤ 1
  order : s.log.Pairwise fun later earlier =>
    later.startsCycle = true → earlier.isStop = false ∧ earlier.isResolve = false

/-- An entry that is no start of a cycle and no end, sets no timer and is no stop. -/
structure Entry.Neutral (entry : Entry R E) : Prop where
  notExecute : entry.isExecute = false
  notSettled : entry.isSettled = false
  notResolve : entry.isResolve = false
  notStop : entry.isStop = false
  notSchedule : entry.scheduled? = none
  notCycle : entry.startsCycle = false

theorem Books.note (h : Books s) (hentry : entry.Neutral)
    (hends : ∀ k, entry.ends k = true → k < s.callbacks) :
    Books { s with log := entry :: s.log } where
  cycles := by simpa [hentry.notExecute, hentry.notSettled] using h.cycles
  settlements := by simpa [Scheduling.settlements, hentry.notResolve] using h.settlements
  stops := by simpa [hentry.notStop] using h.stops
  timers := by simpa [List.filterMap_cons, hentry.notSchedule] using h.timers
  distinct := by simpa [List.filterMap_cons, hentry.notSchedule] using h.distinct
  consumed k hk := by simp [h.consumed k hk]
  ended k hk := by
    rw [List.any_cons, Bool.or_eq_true] at hk
    exact hk.elim (hends k) (h.ended k)
  oneTimer := (length_pendingTimers_cons_le hentry.notSchedule).trans h.oneTimer
  order := List.pairwise_cons.mpr ⟨by simp [hentry.notCycle], h.order⟩

/-- Before a stop and a completion there is neither in the log. -/
theorem Books.fresh (h : Books s) (hstop : s.stopRequested = false) (hcompleted : s.completed = false) :
    ∀ earlier ∈ s.log, earlier.isStop = false ∧ earlier.isResolve = false := by
  intro earlier hearlier
  constructor
  · by_contra hnot
    have hany : s.log.any (·.isStop) = true :=
      List.any_eq_true.mpr ⟨earlier, hearlier, by simpa using hnot⟩
    have := h.stops hany
    simp [hstop, hcompleted] at this
  · have hnone := h.settlements
    rw [hcompleted, Scheduling.settlements, Bool.toNat_false, List.countP_eq_zero] at hnone
    simpa using hnone earlier hearlier

/-! ## The invariant -/

/-- What holds between the flags. -/
structure Inv (s : LoopState R E) : Prop extends Books s where
  busy : s.cycleInFlight = true → s.completed = false ∧ s.pendingTimer = none
  stopping : s.stopRequested = true → s.completed = false → s.cycleInFlight = true
  waiting : ∀ k, s.pendingTimer = some k →
    s.completed = false ∧ s.stopRequested = false ∧ k ∈ pendingTimers s.log
  /-- A callback that has not been called is the pending timer's, or too late. -/
  callbacks : ∀ k < s.callbacks, k ∉ s.consumed → s.completed = true ∨ s.pendingTimer = some k
  awake : s.started = true →
    s.completed = true ∨ s.cycleInFlight = true ∨ s.pendingTimer.isSome = true
  unstarted : s.started = false → s = {}

/-- A loop between two of its parts: it waits for nothing, and has not completed. -/
structure Idle (s : LoopState R E) : Prop extends Books s where
  started : s.started = true
  open' : s.completed = false
  notBusy : s.cycleInFlight = false
  noTimer : s.pendingTimer = none

/-- Every callback has been called. -/
def AllConsumed (s : LoopState R E) : Prop := ∀ k < s.callbacks, k ∈ s.consumed

theorem books_init : Books ({} : LoopState R E) :=
  ⟨rfl, rfl, by simp, by simp, by simp, by simp, by simp, by simp [pendingTimers], by simp⟩

theorem inv_init : Inv ({} : LoopState R E) where
  toBooks := books_init
  busy := by simp
  stopping := by simp
  waiting := by simp
  callbacks := by simp
  awake := by simp
  unstarted := by simp

theorem Idle.complete (h : Idle s) (completion : LoopCompletion R E) : Inv (s.complete completion) := by
  rw [LoopState.complete, h.open', if_neg (by simp)]
  exact {
    cycles := by simpa [Entry.isExecute, Entry.isSettled] using h.cycles
    settlements := by
      have hnone := h.settlements
      rw [h.open', Scheduling.settlements] at hnone
      rw [Scheduling.settlements, List.countP_cons_of_pos rfl, hnone]
      rfl
    stops := by simp
    timers := by simpa [List.filterMap_cons, Entry.scheduled?] using h.timers
    distinct := by simpa [List.filterMap_cons, Entry.scheduled?] using h.distinct
    consumed := fun k hk => by simp [h.consumed k hk]
    ended := by simpa [Entry.ends] using h.ended
    oneTimer := (length_pendingTimers_cons_le rfl).trans h.oneTimer
    order := List.pairwise_cons.mpr ⟨by simp [Entry.startsCycle], h.order⟩
    busy := by simp [h.notBusy]
    stopping := by simp
    waiting := by simp [h.noTimer]
    callbacks := by simp
    awake := by simp
    unstarted := by simp [h.started] }

theorem Idle.runNextCycle (h : Idle s) (hstop : s.stopRequested = false) (hall : AllConsumed s)
    (launch : Option E) : Inv (s.runNextCycle launch) := by
  have hfresh := h.fresh hstop h.open'
  unfold LoopState.runNextCycle
  rw [if_neg (by simp [h.open', hstop, h.notBusy])]
  cases launch with
  | none =>
      exact {
        cycles := by
          have hcycles := h.cycles
          rw [h.notBusy] at hcycles
          rw [List.countP_cons_of_pos rfl, List.countP_cons_of_neg (by simp [Entry.isSettled]), hcycles]
          rfl
        settlements := by simpa [Scheduling.settlements, Entry.isResolve] using h.settlements
        stops := by simpa [Entry.isStop] using h.stops
        timers := by simpa [List.filterMap_cons, Entry.scheduled?] using h.timers
        distinct := by simpa [List.filterMap_cons, Entry.scheduled?] using h.distinct
        consumed := fun k hk => by simp [h.consumed k hk]
        ended := by simpa [Entry.ends] using h.ended
        oneTimer := (length_pendingTimers_cons_le rfl).trans h.oneTimer
        order := List.pairwise_cons.mpr ⟨fun earlier hearlier _ => hfresh earlier hearlier, h.order⟩
        busy := by simp [h.open', h.noTimer]
        stopping := by simp
        waiting := by simp [h.noTimer]
        callbacks := fun k hk hnot => absurd (hall k hk) hnot
        awake := by simp
        unstarted := by simp [h.started] }
  | some error =>
      refine Idle.complete ?_ _
      exact {
        cycles := by
          have := h.cycles
          rw [h.notBusy] at this
          simpa [Entry.isExecute, Entry.isSettled] using this
        settlements := by simpa [Scheduling.settlements, Entry.isResolve] using h.settlements
        stops := by simpa [Entry.isStop] using h.stops
        timers := by simpa [List.filterMap_cons, Entry.scheduled?] using h.timers
        distinct := by simpa [List.filterMap_cons, Entry.scheduled?] using h.distinct
        consumed := fun k hk => by simp [h.consumed k hk]
        ended := by simpa [Entry.ends] using h.ended
        oneTimer := (length_pendingTimers_cons_le rfl).trans h.oneTimer
        order := List.pairwise_cons.mpr ⟨fun earlier hearlier _ => hfresh earlier hearlier, h.order⟩
        started := h.started
        open' := h.open'
        notBusy := rfl
        noTimer := h.noTimer }

theorem Idle.scheduleNextCycle (h : Idle s) (hstop : s.stopRequested = false)
    (hall : AllConsumed s) (schedule : Option E) : Inv (s.scheduleNextCycle schedule) := by
  -- all timers have ended, and the new one has a new number
  have hended : pendingTimers s.log = [] := by
    refine List.eq_nil_iff_forall_not_mem.mpr fun k hk => ?_
    obtain ⟨hscheduled, hopen⟩ := mem_pendingTimers.mp hk
    rw [h.consumed k (hall k (h.timers k hscheduled))] at hopen
    cases hopen
  unfold LoopState.scheduleNextCycle
  cases schedule with
  | none =>
      dsimp only
      have htimers : (.schedule s.callbacks :: s.log).filterMap (·.scheduled?) =
          s.callbacks :: s.log.filterMap (·.scheduled?) := rfl
      have hnew : s.callbacks ∉ s.log.filterMap (·.scheduled?) := fun hmem =>
        absurd (h.timers _ hmem) (lt_irrefl _)
      have hsub : ∀ k ∈ pendingTimers (.schedule s.callbacks :: s.log), k = s.callbacks := by
        intro k hk
        obtain ⟨hscheduled, hopen⟩ := mem_pendingTimers.mp hk
        rw [htimers, List.mem_cons] at hscheduled
        rcases hscheduled with hsame | hold
        · exact hsame
        · have hmem : k ∈ pendingTimers s.log :=
            mem_pendingTimers.mpr ⟨hold, by simpa [Entry.ends] using hopen⟩
          rw [hended] at hmem
          cases hmem
      have hfresh : s.log.any (·.ends s.callbacks) = false := by
        by_contra hnot
        exact absurd (h.ended s.callbacks (by simpa using hnot)) (lt_irrefl _)
      have hdistinct : ((.schedule s.callbacks :: s.log).filterMap (·.scheduled?)).Nodup := by
        rw [htimers]
        exact List.nodup_cons.mpr ⟨hnew, h.distinct⟩
      exact {
        cycles := by simpa [Entry.isExecute, Entry.isSettled] using h.cycles
        settlements := by simpa [Scheduling.settlements, Entry.isResolve] using h.settlements
        stops := by simpa [Entry.isStop] using h.stops
        timers := by
          rw [htimers]
          intro k hk
          rcases List.mem_cons.mp hk with rfl | hold
          · exact Nat.lt_succ_self _
          · exact Nat.lt_succ_of_lt (h.timers k hold)
        distinct := hdistinct
        consumed := fun k hk => by simp [h.consumed k hk]
        ended := fun k hk => Nat.lt_succ_of_lt (h.ended k (by simpa [Entry.ends] using hk))
        oneTimer := by
          have hone : pendingTimers (.schedule s.callbacks :: s.log) ⊆ [s.callbacks] := by
            intro k hk
            rw [hsub k hk]
            exact List.mem_singleton_self _
          exact ((hdistinct.filter _).subperm hone).length_le
        order := List.pairwise_cons.mpr ⟨by simp [Entry.startsCycle], h.order⟩
        busy := by simp [h.notBusy]
        stopping := by simp [hstop]
        waiting := fun k hk => by
          obtain rfl : s.callbacks = k := Option.some.inj hk
          refine ⟨h.open', hstop, mem_pendingTimers.mpr ⟨?_, ?_⟩⟩
          · rw [htimers]
            exact List.mem_cons_self
          · rw [List.any_cons, hfresh]
            rfl
        callbacks := fun k hk hnot => by
          rcases Nat.lt_succ_iff_lt_or_eq.mp hk with hold | rfl
          · exact absurd (hall k hold) hnot
          · exact .inr rfl
        awake := by simp
        unstarted := by simp [h.started] }
  | some error =>
      refine Idle.complete ?_ _
      have hbooks : Books { s with log := .scheduleThrew error :: s.log } :=
        h.toBooks.note ⟨rfl, rfl, rfl, rfl, rfl, rfl⟩ (by simp [Entry.ends])
      exact { hbooks with
        timers := fun k hk => Nat.lt_succ_of_lt (hbooks.timers k hk)
        ended := fun k hk => Nat.lt_succ_of_lt (hbooks.ended k hk)
        started := h.started
        open' := h.open'
        notBusy := h.notBusy
        noTimer := h.noTimer }

/-! ## The events -/

/-- An entry that a loop only notes. -/
theorem Inv.note (h : Inv s) (hstarted : s.started = true) (hentry : entry.Neutral)
    (hends : ∀ k, entry.ends k = true → k ∈ s.consumed ∧ k < s.callbacks) :
    Inv { s with log := entry :: s.log } :=
  { h.toBooks.note hentry (fun k hk => (hends k hk).2) with
    busy := h.busy
    stopping := h.stopping
    waiting := fun k hk => by
      obtain ⟨hopen, hstop, hmem⟩ := h.waiting k hk
      refine ⟨hopen, hstop, ?_⟩
      rw [pendingTimers_cons hentry.notSchedule, List.mem_filter]
      refine ⟨hmem, ?_⟩
      -- the pending timer's callback has not been called
      rw [Bool.not_eq_true', Bool.eq_false_iff]
      intro hend
      rw [mem_pendingTimers, h.consumed k (hends k hend).1] at hmem
      cases hmem.2
    callbacks := h.callbacks
    awake := h.awake
    unstarted := fun hnot => by simp [hstarted] at hnot }

theorem Inv.start (h : Inv s) (launch : Option E) : Inv (s.start launch) := by
  unfold LoopState.start
  have hneutral : (.start : Entry R E).Neutral := ⟨rfl, rfl, rfl, rfl, rfl, rfl⟩
  by_cases hstarted : s.started = true
  · rw [if_neg (by simp [hstarted])]
    exact h.note hstarted hneutral (by simp [Entry.ends])
  · rw [h.unstarted (by simpa using hstarted), if_pos (by simp)]
    have hbooks : Books { ({} : LoopState R E) with log := [.start] } :=
      books_init.note hneutral (by simp [Entry.ends])
    have hidle : Idle { ({} : LoopState R E) with started := true, log := [.start] } :=
      { hbooks with started := rfl, open' := rfl, notBusy := rfl, noTimer := rfl }
    exact hidle.runNextCycle rfl (fun k hk => by simp at hk) launch

theorem Inv.started_of_callbacks (h : Inv s) {k : Nat} (hk : k < s.callbacks) : s.started = true := by
  by_contra hnot
  rw [h.unstarted (by simpa using hnot)] at hk
  simp at hk

theorem Inv.fire (h : Inv s) {k : Nat} (hk : k < s.callbacks) (launch : Option E) :
    Inv (s.fire k launch) := by
  have hstarted := h.started_of_callbacks hk
  have hneutral : (.fired k : Entry R E).Neutral := ⟨rfl, rfl, rfl, rfl, rfl, rfl⟩
  have hends : ∀ k', (.fired k : Entry R E).ends k' = true → k' = k := by simp [Entry.ends]
  unfold LoopState.fire
  dsimp only
  by_cases hconsumed : k ∈ s.consumed
  · rw [if_pos hconsumed]
    refine h.note hstarted hneutral fun k' hk' => ?_
    rw [hends k' hk']
    exact ⟨hconsumed, hk⟩
  rw [if_neg hconsumed]
  have hnote := h.toBooks.note hneutral fun k' hk' => by rw [hends k' hk']; exact hk
  have hbooks : Books { s with
      log := .fired k :: s.log, consumed := k :: s.consumed, pendingTimer := none } :=
    { hnote with
      consumed := fun k' hk' => by
        rcases List.mem_cons.mp hk' with rfl | hold
        · simp [Entry.ends]
        · exact hnote.consumed k' hold }
  by_cases hopen : s.completed = true
  · -- too late
    rw [if_neg (by simp [hopen])]
    exact { hbooks with
      busy := fun hbusy => by simp [(h.busy hbusy).1] at hopen
      stopping := fun _ hnot => by simp [hopen] at hnot
      waiting := by simp
      callbacks := fun _ _ _ => .inl hopen
      awake := fun _ => .inl hopen
      unstarted := fun hnot => by simp [hstarted] at hnot }
  · -- the callback is the pending timer's
    have htimer : s.pendingTimer = some k := (h.callbacks k hk hconsumed).resolve_left hopen
    obtain ⟨hopen', hstop, _⟩ := h.waiting k htimer
    rw [if_pos (by simp [hopen', hstop])]
    have hidle : Idle { s with
        log := .fired k :: s.log, consumed := k :: s.consumed, pendingTimer := none } :=
      { hbooks with
        started := hstarted
        open' := hopen'
        notBusy := by
          by_contra hbusy
          simp [(h.busy (by simpa using hbusy)).2] at htimer
        noTimer := rfl }
    refine hidle.runNextCycle hstop (fun k' hk' => ?_) launch
    by_contra hnot
    obtain ⟨hne, hnot⟩ : k' ≠ k ∧ k' ∉ s.consumed := by simpa using hnot
    have hother := (h.callbacks k' hk' hnot).resolve_left hopen
    rw [htimer] at hother
    exact hne (Option.some.inj hother).symm

/-- The books of a loop that has been asked to stop. -/
theorem Books.stopped (h : Books s) :
    Books { s with stopRequested := true, log := .stop :: s.log } where
  cycles := by simpa [Entry.isExecute, Entry.isSettled] using h.cycles
  settlements := by simpa [Scheduling.settlements, Entry.isResolve] using h.settlements
  stops := by simp
  timers := by simpa [List.filterMap_cons, Entry.scheduled?] using h.timers
  distinct := by simpa [List.filterMap_cons, Entry.scheduled?] using h.distinct
  consumed k hk := by simp [h.consumed k hk]
  ended := by simpa [Entry.ends] using h.ended
  oneTimer := (length_pendingTimers_cons_le rfl).trans h.oneTimer
  order := List.pairwise_cons.mpr ⟨by simp [Entry.startsCycle], h.order⟩

theorem Inv.stop (h : Inv s) (cancel : Option E) : Inv (s.stop cancel) := by
  have hbooks := h.toBooks.stopped
  unfold LoopState.stop
  by_cases hopen : s.completed = true
  · rw [if_pos hopen]
    have hstarted : s.started = true := by
      by_contra hnot
      rw [h.unstarted (by simpa using hnot)] at hopen
      cases hopen
    exact { hbooks with
      stops := fun _ => .inr hopen
      busy := h.busy
      stopping := fun _ hnot => by simp [hopen] at hnot
      waiting := fun k hk => by simp [(h.waiting k hk).1] at hopen
      callbacks := h.callbacks
      awake := h.awake
      unstarted := fun hnot => by simp [hstarted] at hnot }
  rw [if_neg hopen]
  rw [Bool.not_eq_true] at hopen
  dsimp only
  by_cases hstarted : s.started = true
  · rw [if_neg (by simp [hstarted])]
    cases htimer : s.pendingTimer with
    | some k =>
        obtain ⟨_, _, hmem⟩ := h.waiting k htimer
        have hk : k < s.callbacks := h.timers k (mem_pendingTimers.mp hmem).1
        have hidle : ∀ entry : Entry R E, entry.Neutral → (∀ k', entry.ends k' = true → k' = k) →
            Idle { s with
              stopRequested := true, pendingTimer := none, log := entry :: .stop :: s.log } := by
          intro entry hneutral hends
          exact { hbooks.note hneutral (fun k' hk' => by rw [hends k' hk']; exact hk) with
            started := hstarted
            open' := hopen
            notBusy := by
              by_contra hbusy
              simp [(h.busy (by simpa using hbusy)).2] at htimer
            noTimer := rfl }
        cases cancel with
        | none =>
            exact (hidle (.cancel k) ⟨rfl, rfl, rfl, rfl, rfl, rfl⟩ (by simp [Entry.ends])).complete _
        | some error =>
            exact (hidle (.cancelThrew k error) ⟨rfl, rfl, rfl, rfl, rfl, rfl⟩
              (by simp [Entry.ends])).complete _
    | none =>
        dsimp only
        by_cases hbusy : s.cycleInFlight = true
        · rw [if_neg (by simp [hbusy])]
          exact { hbooks with
            busy := fun _ => ⟨hopen, rfl⟩
            stopping := fun _ _ => hbusy
            waiting := by simp
            callbacks := fun k hk hnot => by simpa [htimer] using h.callbacks k hk hnot
            awake := fun _ => .inr (.inl hbusy)
            unstarted := fun hnot => by simp [hstarted] at hnot }
        · rw [if_pos (by simpa using hbusy)]
          refine Idle.complete ?_ _
          exact { hbooks with
            started := hstarted
            open' := hopen
            notBusy := by simpa using hbusy
            noTimer := rfl }
  · rw [if_pos (by simpa using hstarted)]
    have hinit := h.unstarted (by simpa using hstarted)
    refine Idle.complete ?_ _
    exact { hbooks with
      started := rfl
      open' := hopen
      notBusy := by rw [hinit]
      noTimer := by rw [hinit] }

/-- A cycle is in flight where the log says so. -/
theorem Books.cycleInFlight_eq (h : Books s) : cyclesInFlight s.log = s.cycleInFlight.toNat := by
  rw [cyclesInFlight, h.cycles, Nat.add_sub_cancel_left]

theorem Inv.settle (h : Inv s) (hflight : 0 < cyclesInFlight s.log) (outcome : Except E R)
    (schedule : Option E) : Inv (loop.settle outcome schedule s) := by
  have hbusy : s.cycleInFlight = true := by
    by_contra hnot
    rw [Bool.not_eq_true] at hnot
    rw [h.cycleInFlight_eq, hnot] at hflight
    exact absurd hflight (by decide)
  obtain ⟨hopen, htimer⟩ := h.busy hbusy
  have hstarted : s.started = true := by
    by_contra hnot
    rw [h.unstarted (by simpa using hnot)] at hbusy
    cases hbusy
  have hidle : Idle { s with cycleInFlight := false, log := .settled outcome :: s.log } := {
    cycles := by
      have hcycles := h.cycles
      rw [hbusy, Bool.toNat_true] at hcycles
      rw [List.countP_cons_of_neg (by simp [Entry.isExecute]), List.countP_cons_of_pos rfl, hcycles]
      rfl
    settlements := by simpa [Scheduling.settlements, Entry.isResolve] using h.settlements
    stops := by simpa [Entry.isStop] using h.stops
    timers := by simpa [List.filterMap_cons, Entry.scheduled?] using h.timers
    distinct := by simpa [List.filterMap_cons, Entry.scheduled?] using h.distinct
    consumed := fun k hk => by simp [h.consumed k hk]
    ended := by simpa [Entry.ends] using h.ended
    oneTimer := (length_pendingTimers_cons_le rfl).trans h.oneTimer
    order := List.pairwise_cons.mpr ⟨by simp [Entry.startsCycle], h.order⟩
    started := hstarted
    open' := hopen
    notBusy := rfl
    noTimer := htimer }
  have hall : AllConsumed { s with cycleInFlight := false, log := .settled outcome :: s.log } := by
    intro k hk
    by_contra hnot
    have hwaits := h.callbacks k hk hnot
    simp [hopen, htimer] at hwaits
  unfold Loop.settle
  cases outcome with
  | error error => exact hidle.complete _
  | ok result =>
      dsimp only
      unfold Loop.handleCycleResult
      cases loop.verdict result with
      | some completion => exact hidle.complete completion
      | none =>
          dsimp only
          by_cases hstop : s.stopRequested = true
          · rw [if_pos hstop]
            exact hidle.complete _
          · rw [if_neg hstop]
            exact hidle.scheduleNextCycle (by simpa using hstop) hall schedule

theorem inv_reachable (h : Reachable loop s) : Inv s := by
  induction h with
  | init => exact inv_init
  | start launch _ ih => exact ih.start launch
  | stop cancel _ ih => exact ih.stop cancel
  | fire launch _ hk ih => exact ih.fire hk launch
  | settle outcome schedule _ hflight ih => exact ih.settle hflight outcome schedule

/-- The log of a reachable loop is orderly. -/
theorem Inv.orderly (h : Inv s) : Orderly s.log where
  oneCycle := by
    rw [h.cycleInFlight_eq]
    exact Bool.toNat_le _
  oneTimer := h.oneTimer
  noLateCycle := h.order
  settledOnce := by
    rw [h.settlements]
    exact Bool.toNat_le _
  settledAfterStop hstop hcycles := by
    rw [h.cycleInFlight_eq, Bool.toNat_eq_zero] at hcycles
    rw [h.settlements, Bool.toNat_eq_one]
    rcases h.stops hstop with hrequested | hcompleted
    · by_contra hopen
      simp [h.stopping hrequested (by simpa using hopen)] at hcycles
    · exact hcompleted
  settledAtRest hlog hcycles htimers := by
    rw [h.cycleInFlight_eq, Bool.toNat_eq_zero] at hcycles
    rw [h.settlements, Bool.toNat_eq_one]
    have hstarted : s.started = true := by
      by_contra hnot
      exact hlog (by rw [h.unstarted (by simpa using hnot)])
    rcases h.awake hstarted with hcompleted | hbusy | htimer
    · exact hcompleted
    · simp [hcycles] at hbusy
    · obtain ⟨k, hk⟩ := Option.isSome_iff_exists.mp htimer
      have hmem := (h.waiting k hk).2.2
      rw [htimers] at hmem
      cases hmem

end Proofs

end Step

/-- **The scheduler loops are orderly**: in every state that starts, stops, timers and settled
cycles lead to, in any order, there is at most one cycle in flight and one timer pending, no
cycle has been started behind a stop or the completion, and the completion was settled once
when the loop has come to its end, and not before. -/
theorem loops_orderly (E : Type) :
    (∀ s, Reachable (serviceAvailabilityReconciliationSchedulerLoop E) s → Orderly s.log) ∧
      ∀ s, Reachable (machinePowerSchedulerLoop E) s → Orderly s.log :=
  ⟨fun _ h => (inv_reachable h).orderly, fun _ h => (inv_reachable h).orderly⟩

/-- A loop that is started, stopped while its cycle is in flight, and whose cycle then fails. -/
theorem loops_orderly_stopped :
    ∃ s, Reachable (serviceAvailabilityReconciliationSchedulerLoop Unit) s ∧ Orderly s.log ∧
      settlements s.log = 1 := by
  have hinit : Reachable (serviceAvailabilityReconciliationSchedulerLoop Unit) {} := .init
  have hstarted := hinit.start none
  have hsettled := Reachable.settle (.error ()) none (hstarted.stop none) (by decide)
  exact ⟨_, hsettled, (loops_orderly Unit).1 _ hsettled, rfl⟩

end AtlasManager.Scheduling
