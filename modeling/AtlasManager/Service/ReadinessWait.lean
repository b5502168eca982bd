import AtlasManager.Lib.Prog

/-!
# AtlasManager.Service.ReadinessWait

Waiting for a service to be ready.

* `execute` -- the loop over the checks, as a program over its ports;
* `WithinBounds` -- so many checks at most, and no wait past the deadline;
* `execute_waits` -- every run, wherever it stops, is within the bounds, and it ends with a
  result exactly when a check has reported ready.
-/

namespace AtlasManager.Service.WaitForRegisteredServiceReadiness

open AtlasManager.Lib

/-! ## Ports -/

/-- How long to wait for a service, and how often to look, both in milliseconds. -/
structure ReadinessPolicy where
  timeoutMilliseconds : Nat
  pollIntervalMilliseconds : Nat
  timeout : 1000 ≤ timeoutMilliseconds ∧ timeoutMilliseconds ≤ 120000
  pollInterval : 100 ≤ pollIntervalMilliseconds ∧ pollIntervalMilliseconds ≤ 5000
  pollWithinTimeout : pollIntervalMilliseconds ≤ timeoutMilliseconds
  deriving DecidableEq

/-- What the wait reads of a registered service. -/
structure WaitedService where
  id : String
  readinessPolicy : ReadinessPolicy
  deriving DecidableEq

inductive ServiceReadinessState where
  | ready
  | notReady
  deriving DecidableEq, Repr

structure ServiceReadinessResult where
  serviceId : String
  observedAt : String
  state : ServiceReadinessState
  deriving DecidableEq

structure ReadyService where
  serviceId : String
  observedAt : String
  deriving DecidableEq

inductive WaitError where
  | registeredServiceNotFound
  | readinessTimeout (serviceId : String)
  /-- A port has failed. -/
  | port (text : String)
  deriving DecidableEq, Repr

/-- A clock may read no date at all, `none`, and `sleep` may be given no number. -/
inductive WaitCall where
  | findById (serviceId : String)
  | now
  | check (service : WaitedService)
  | sleep (milliseconds : Option Int)

abbrev WaitCall.Answer : WaitCall → Type
  | findById _ => Option WaitedService
  | now => Option Int
  | check _ => ServiceReadinessResult
  | sleep _ => Unit

abbrev WaitProg := Prog WaitCall WaitCall.Answer WaitError

abbrev WaitLog := Prog.Log WaitCall WaitCall.Answer WaitError

def ask (call : WaitCall) : WaitProg call.Answer := Prog.perform call

/-! ## The loop -/

/-- `Math.ceil(timeout / pollInterval) + 1`; a policy passes the checks in front of it. -/
def computeMaxAttempts (policy : ReadinessPolicy) : Nat :=
  (policy.timeoutMilliseconds + policy.pollIntervalMilliseconds - 1) /
    policy.pollIntervalMilliseconds + 1

/-- `now >= deadline`. -/
def isReached : Option Int → Option Int → Bool
  | some now, some deadline => deadline ≤ now
  | _, _ => false

/-- `Math.min(pollInterval, deadline - now)`. -/
def waitTime (policy : ReadinessPolicy) : Option Int → Option Int → Option Int
  | some now, some deadline => some (min policy.pollIntervalMilliseconds (deadline - now))
  | _, _ => none

/-- `waitTime < 1`. -/
def isTooShort : Option Int → Bool
  | some milliseconds => milliseconds < 1
  | none => false

/-- The loop, with so many attempts left. -/
def pollLoop (service : WaitedService) (serviceId : String) (deadline : Option Int) :
    Nat → WaitProg ReadyService
  | 0 => .throw (.readinessTimeout serviceId)
  | attempts + 1 => do
    let result ← ask (.check service)
    if result.state = .ready then return ⟨serviceId, result.observedAt⟩
    else
      let now ← ask .now
      if isReached now deadline then .throw (.readinessTimeout serviceId)
      else
        let milliseconds := waitTime service.readinessPolicy now deadline
        if isTooShort milliseconds then .throw (.readinessTimeout serviceId)
        else
          ask (.sleep milliseconds)
          pollLoop service serviceId deadline attempts

def execute (serviceId : String) : WaitProg ReadyService := do
  match ← ask (.findById serviceId) with
  | none => .throw .registeredServiceNotFound
  | some service =>
    let maxAttempts := computeMaxAttempts service.readinessPolicy
    let startTime ← ask .now
    let deadline := startTime.map (· + (service.readinessPolicy.timeoutMilliseconds : Int))
    pollLoop service serviceId deadline maxAttempts

/-! ## What is asked of a run -/

abbrev WaitEvent := Prog.Event WaitCall WaitCall.Answer WaitError

/-- The result of a check that has not failed, and whether it has. -/
def check? : WaitEvent → Option (Except WaitError ServiceReadinessResult)
  | ⟨.check _, answer⟩ => some answer
  | _ => none

/-- The checks of a run, the latest one first. -/
def checks (log : WaitLog) : List (Except WaitError ServiceReadinessResult) := log.filterMap check?

def reading? : WaitEvent → Option (Option Int)
  | ⟨.now, .ok reading⟩ => some reading
  | _ => none

/-- The readings of the clock, the latest one first. -/
def readings (log : WaitLog) : List (Option Int) := log.filterMap reading?

/-- A sleep after these readings ends no later than the deadline, if both the first and the
last reading are dates. -/
def EndsInTime (timeout : Nat) (readings : List (Option Int)) (milliseconds : Option Int) : Prop :=
  ∃ start now, readings.getLast? = some start ∧ readings.head? = some now ∧
    match milliseconds with
    | some milliseconds => 1 ≤ milliseconds ∧
        ∃ s ∈ start, ∃ n ∈ now, n + milliseconds ≤ s + (timeout : Int)
    | none => start = none ∨ now = none

/-- So many checks at most, and no wait past the deadline. -/
structure WithinBounds (policy : ReadinessPolicy) (log : WaitLog) : Prop where
  checks : (checks log).length ≤
    ⌈(policy.timeoutMilliseconds : ℚ) / policy.pollIntervalMilliseconds⌉₊ + 1
  sleeps : ∀ later milliseconds answer earlier,
    log = later ++ ⟨.sleep milliseconds, answer⟩ :: earlier →
      EndsInTime policy.timeoutMilliseconds (readings earlier) milliseconds

/-- A run ends with a result exactly when a check has reported ready, and it is that check's. -/
def ReadyIff (serviceId : String) (outcome : Except WaitError ReadyService) (log : WaitLog) : Prop :=
  ∀ observedAt, outcome = .ok ⟨serviceId, observedAt⟩ ↔
    ∃ result, .ok result ∈ checks log ∧ result.state = .ready ∧ result.observedAt = observedAt

/-- The catalog knows this service; the clock, the checks and the timer answer anything. -/
def waitAnswers (found : Option WaitedService) (call : WaitCall)
    (answer : Except WaitError call.Answer) : Prop :=
  match call, answer with
  | .findById _, answer => answer = .ok found
  | _, _ => True

/-! ## The number of checks -/

theorem computeMaxAttempts_eq (policy : ReadinessPolicy) : computeMaxAttempts policy =
    ⌈(policy.timeoutMilliseconds : ℚ) / policy.pollIntervalMilliseconds⌉₊ + 1 := by
  have hpoll : 0 < policy.pollIntervalMilliseconds := by
    have := policy.pollInterval
    omega
  rw [computeMaxAttempts, ← Nat.ceilDiv_eq_add_pred_div]
  congr 1
  refine eq_of_forall_ge_iff fun count => ?_
  rw [ceilDiv_le_iff_le_smul hpoll, Nat.ceil_le, div_le_iff₀ (by exact_mod_cast hpoll), smul_eq_mul,
    mul_comm]
  norm_cast

/-! ## The loop within its bounds -/

section Loop

variable {service : WaitedService} {serviceId : String} {start : Option Int}

/-- Before an attempt: the first reading is known, no check has reported ready, and all
waits were in time. -/
structure Waiting (service : WaitedService) (start : Option Int) (used : Nat) (log : WaitLog) :
    Prop where
  start : (readings log).getLast? = some start
  used : (checks log).length = used
  notReady : ∀ result, .ok result ∈ checks log → result.state ≠ .ready
  sleeps : ∀ later milliseconds answer earlier,
    log = later ++ ⟨.sleep milliseconds, answer⟩ :: earlier →
      EndsInTime service.readinessPolicy.timeoutMilliseconds (readings earlier) milliseconds

/-- One event more, no sleep. -/
theorem sleeps_cons {timeout : Nat} {log : WaitLog} {event : WaitEvent}
    (hevent : ∀ milliseconds answer, event ≠ ⟨.sleep milliseconds, answer⟩)
    (h : ∀ later milliseconds answer earlier,
      log = later ++ ⟨.sleep milliseconds, answer⟩ :: earlier →
        EndsInTime timeout (readings earlier) milliseconds)
    (later : WaitLog) (milliseconds : Option Int) (answer : Except WaitError Unit) (earlier : WaitLog)
    (hlog : event :: log = later ++ ⟨.sleep milliseconds, answer⟩ :: earlier) :
    EndsInTime timeout (readings earlier) milliseconds := by
  cases later with
  | nil =>
      rw [List.nil_append, List.cons.injEq] at hlog
      exact absurd hlog.1 (hevent milliseconds answer)
  | cons first later =>
      rw [List.cons_append, List.cons.injEq] at hlog
      exact h later milliseconds answer earlier hlog.2

/-- A sleep that is in time, after others. -/
theorem sleeps_sleep {timeout : Nat} {log : WaitLog} {duration : Option Int}
    {slept : Except WaitError Unit} (hduration : EndsInTime timeout (readings log) duration)
    (h : ∀ later milliseconds answer earlier,
      log = later ++ ⟨.sleep milliseconds, answer⟩ :: earlier →
        EndsInTime timeout (readings earlier) milliseconds)
    (later : WaitLog) (milliseconds : Option Int) (answer : Except WaitError Unit) (earlier : WaitLog)
    (hlog : (⟨.sleep duration, slept⟩ :: log : WaitLog) =
      later ++ ⟨.sleep milliseconds, answer⟩ :: earlier) :
    EndsInTime timeout (readings earlier) milliseconds := by
  cases later with
  | nil =>
      rw [List.nil_append, List.cons.injEq] at hlog
      obtain ⟨hevent, rfl⟩ := hlog
      injection hevent with hcall
      injection hcall with hduration'
      exact hduration' ▸ hduration
  | cons first later =>
      rw [List.cons_append, List.cons.injEq] at hlog
      exact h later milliseconds answer earlier hlog.2

/-- A wait that the loop computes is in time. -/
theorem endsInTime_waitTime {policy : ReadinessPolicy} {now : Option Int} {earlier : List (Option Int)}
    (hstart : (now :: earlier).getLast? = some start)
    (hreached : isReached now (start.map (· + (policy.timeoutMilliseconds : Int))) = false)
    (hshort : isTooShort
      (waitTime policy now (start.map (· + (policy.timeoutMilliseconds : Int)))) = false) :
    EndsInTime policy.timeoutMilliseconds (now :: earlier)
      (waitTime policy now (start.map (· + (policy.timeoutMilliseconds : Int)))) := by
  refine ⟨start, now, hstart, rfl, ?_⟩
  cases start with
  | none => cases now <;> exact .inl rfl
  | some s =>
      cases now with
      | none => exact .inr rfl
      | some n =>
          simp only [Option.map_some, waitTime, isTooShort, decide_eq_false_iff_not, not_lt] at hshort ⊢
          exact ⟨hshort, s, rfl, n, rfl, by omega⟩

/-- Without a check that has reported ready a run ends in an error. -/
theorem readyIff_error {error : WaitError} {log : WaitLog}
    (h : ∀ result, .ok result ∈ checks log → result.state ≠ .ready) :
    ReadyIff serviceId (.error error) log := by
  intro observedAt
  constructor
  · intro heq
    cases heq
  · rintro ⟨result, hmem, hready, -⟩
    exact absurd hready (h result hmem)

/-- A check reports ready, none before it. -/
theorem Waiting.readyIff {used : Nat} {log : WaitLog} (h : Waiting service start used log)
    {result : ServiceReadinessResult} (hready : result.state = .ready) :
    ReadyIff serviceId (.ok ⟨serviceId, result.observedAt⟩) (⟨.check service, .ok result⟩ :: log) := by
  intro observedAt
  have hchecks : checks (⟨.check service, .ok result⟩ :: log) = .ok result :: checks log := rfl
  rw [hchecks]
  constructor
  · intro heq
    simp only [Except.ok.injEq, ReadyService.mk.injEq, true_and] at heq
    exact ⟨result, List.mem_cons_self, hready, heq⟩
  · rintro ⟨other, hmem, hother, rfl⟩
    rcases List.mem_cons.mp hmem with heq | hmem
    · rw [Except.ok.inj heq]
    · exact absurd hother (h.notReady other hmem)

/-- One check more, which has not reported ready. -/
theorem Waiting.checked {used : Nat} {log : WaitLog} (h : Waiting service start used log)
    {result : ServiceReadinessResult} (hready : result.state ≠ .ready) :
    Waiting service start (used + 1) (⟨.check service, .ok result⟩ :: log) where
  start := h.start
  used := congrArg Nat.succ h.used
  notReady := by
    have hchecks : checks (⟨.check service, .ok result⟩ :: log) = .ok result :: checks log := rfl
    intro other hmem
    rw [hchecks] at hmem
    rcases List.mem_cons.mp hmem with heq | hmem
    · rw [Except.ok.inj heq]
      exact hready
    · exact h.notReady other hmem
  sleeps := @sleeps_cons _ _ ⟨.check service, .ok result⟩ (by simp) h.sleeps

/-- At most so many checks, and no wait past the deadline. -/
def WithinAttempts (service : WaitedService) (attempts : Nat) (log : WaitLog) : Prop :=
  (checks log).length ≤ attempts ∧
    ∀ later milliseconds answer earlier,
      log = later ++ ⟨.sleep milliseconds, answer⟩ :: earlier →
        EndsInTime service.readinessPolicy.timeoutMilliseconds (readings earlier) milliseconds

/-- **The wait between two checks**: it ends in time, or the run ends before it. -/
theorem wait_spec (found : Option WaitedService) {used attempts : Nat} {next : WaitProg ReadyService}
    {log : WaitLog} (h : Waiting service start used log) (hused : used ≤ attempts)
    (hnext : ∀ log', Waiting service start used log' →
      Prog.Spec (Prog.logged (waitAnswers found)) (WithinAttempts service attempts) next
        (ReadyIff serviceId) log') :
    Prog.Spec (Prog.logged (waitAnswers found)) (WithinAttempts service attempts)
      (do
        let deadline := start.map (· + (service.readinessPolicy.timeoutMilliseconds : Int))
        let now ← ask .now
        if isReached now deadline then .throw (.readinessTimeout serviceId)
        else
          let milliseconds := waitTime service.readinessPolicy now deadline
          if isTooShort milliseconds then .throw (.readinessTimeout serviceId)
          else
            ask (.sleep milliseconds)
            next)
      (ReadyIff serviceId) log := by
  rw [Prog.spec_bind, ask, Prog.spec_perform]
  rintro answer log₁ ⟨-, rfl⟩
  have hsleeps := @sleeps_cons _ _ ⟨.now, answer⟩ (by simp) h.sleeps
  refine ⟨⟨h.used.trans_le hused, hsleeps⟩, ?_⟩
  cases answer with
  | error error => exact readyIff_error h.notReady
  | ok now =>
      have hlast : (now :: readings log).getLast? = some start := by
        rw [List.getLast?_cons, h.start, Option.getD_some]
      dsimp only
      by_cases hreached : isReached now
          (start.map (· + (service.readinessPolicy.timeoutMilliseconds : Int))) = true
      · rw [if_pos hreached]
        exact readyIff_error h.notReady
      · rw [if_neg hreached]
        by_cases hshort : isTooShort (waitTime service.readinessPolicy now
            (start.map (· + (service.readinessPolicy.timeoutMilliseconds : Int)))) = true
        · rw [if_pos hshort]
          exact readyIff_error h.notReady
        · rw [if_neg hshort, Prog.spec_bind, ask, Prog.spec_perform]
          have htime := endsInTime_waitTime hlast (eq_false_of_ne_true hreached)
            (eq_false_of_ne_true hshort)
          rintro answer log₂ ⟨-, rfl⟩
          have hsleeps' := @sleeps_sleep _ _ _ answer htime hsleeps
          refine ⟨⟨h.used.trans_le hused, hsleeps'⟩, ?_⟩
          cases answer with
          | error error => exact readyIff_error h.notReady
          | ok _ => exact hnext _ ⟨hlast, h.used, h.notReady, hsleeps'⟩

/-- **The loop** keeps to its attempts, and ends with the result of a check that reports ready. -/
theorem pollLoop_spec (found : Option WaitedService) (attempts used : Nat) {log : WaitLog}
    (h : Waiting service start used log) :
    Prog.Spec (Prog.logged (waitAnswers found)) (WithinAttempts service (used + attempts))
      (pollLoop service serviceId
        (start.map (· + (service.readinessPolicy.timeoutMilliseconds : Int))) attempts)
      (ReadyIff serviceId) log := by
  induction attempts generalizing used log with
  | zero => exact readyIff_error h.notReady
  | succ attempts ih =>
      rw [pollLoop, Prog.spec_bind, ask, Prog.spec_perform]
      rintro answer log₁ ⟨-, rfl⟩
      have hused : (checks (⟨.check service, answer⟩ :: log)).length = used + 1 :=
        congrArg Nat.succ h.used
      have hsleeps := @sleeps_cons _ _ ⟨.check service, answer⟩ (by simp) h.sleeps
      refine ⟨⟨by omega, hsleeps⟩, ?_⟩
      cases answer with
      | error error =>
          refine readyIff_error fun result hmem => h.notReady result ?_
          rw [show checks (⟨.check service, .error error⟩ :: log) = .error error :: checks log from rfl]
            at hmem
          simpa using hmem
      | ok result =>
          dsimp only
          by_cases hready : result.state = .ready
          · rw [if_pos hready, Prog.spec_pure]
            exact h.readyIff hready
          · rw [if_neg hready]
            refine wait_spec found (h.checked hready) (by omega) fun log' hwaiting => ?_
            have hrest := ih (used + 1) hwaiting
            rwa [Nat.add_right_comm] at hrest

end Loop

/-! ## Whole runs -/

theorem execute_spec (serviceId : String) (found : Option WaitedService) :
    Prog.Spec (Prog.logged (waitAnswers found))
      (fun log => ∀ service ∈ found, WithinBounds service.readinessPolicy log)
      (execute serviceId) (fun outcome log => ReadyIff serviceId outcome log) [] := by
  have hnone : ∀ (policy : ReadinessPolicy) (log : WaitLog), checks log = [] →
      (∀ event ∈ log, ∀ milliseconds answer, event ≠ ⟨.sleep milliseconds, answer⟩) →
      WithinBounds policy log := by
    intro policy log hchecks hsleeps
    refine ⟨by rw [hchecks]; simp, ?_⟩
    rintro later milliseconds answer earlier rfl
    exact absurd rfl (hsleeps ⟨.sleep milliseconds, answer⟩ (by simp) milliseconds answer)
  rw [execute, Prog.spec_bind, ask, Prog.spec_perform]
  rintro answer log₁ ⟨rfl, rfl⟩
  refine ⟨fun service _ => hnone _ _ rfl (by simp), ?_⟩
  cases found with
  | none => exact readyIff_error (by simp [checks, check?])
  | some service =>
      dsimp only
      rw [Prog.spec_bind, ask, Prog.spec_perform]
      rintro answer log₂ ⟨-, rfl⟩
      refine ⟨fun service _ => hnone _ _ rfl (by simp), ?_⟩
      cases answer with
      | error error => exact readyIff_error (by simp [checks, check?])
      | ok start =>
          have hwaiting : Waiting service start 0
              [⟨.now, .ok start⟩, ⟨.findById serviceId, .ok (some service)⟩] := by
            refine ⟨rfl, rfl, by simp [checks, check?], ?_⟩
            exact (hnone service.readinessPolicy _ rfl (by simp)).sleeps
          refine (pollLoop_spec (some service) _ 0 hwaiting).mono ?_ fun _ _ h => h
          intro log hlog other hother
          obtain rfl := Option.some.inj hother
          rw [Nat.zero_add, computeMaxAttempts_eq] at hlog
          exact ⟨hlog.1, hlog.2⟩

/-- **Waiting is bounded**: whatever the clock reads, the checks report and the timer does, a
run is within its bounds wherever it stops, and ends with a result exactly when a check has
reported ready. -/
theorem execute_waits (serviceId : String) (service : WaitedService) :
    (∀ log, Prog.Reach (Prog.logged (waitAnswers (some service))) (execute serviceId) [] log →
      WithinBounds service.readinessPolicy log) ∧
    ∀ outcome log,
      Prog.Exec (Prog.logged (waitAnswers (some service))) (execute serviceId) [] outcome log →
      ReadyIff serviceId outcome log := by
  have hspec := execute_spec serviceId (some service)
  refine ⟨fun log hreach => ?_, fun outcome log hexec => hspec.exec hexec⟩
  have hempty : ∀ other ∈ some service, WithinBounds other.readinessPolicy [] :=
    fun other _ => ⟨by simp [checks], by simp⟩
  exact hspec.reach hempty hreach service rfl

/-- A service that is waited for a second, and looked at every tenth of it. -/
def web : WaitedService := ⟨"web", ⟨1000, 100, by decide, by decide, by decide⟩⟩

/-- The clock stands, and the second check reports ready. -/
def webAnswer (log : WaitLog) : (call : WaitCall) → Except WaitError call.Answer × WaitLog
  | .findById id => (.ok (some web), ⟨.findById id, .ok (some web)⟩ :: log)
  | .now => (.ok (some 0), ⟨.now, .ok (some 0)⟩ :: log)
  | .check service =>
    let result : ServiceReadinessResult :=
      ⟨"web", "2026-01-05T12:00:00.000Z", if (checks log).length = 1 then .ready else .notReady⟩
    (.ok result, ⟨.check service, .ok result⟩ :: log)
  | .sleep milliseconds => (.ok (), ⟨.sleep milliseconds, .ok ()⟩ :: log)

/-- The run ends with the result of the second check. -/
theorem execute_waits_web :
    (Prog.run webAnswer (execute "web") []).1 = .ok ⟨"web", "2026-01-05T12:00:00.000Z"⟩ ∧
      ReadyIff "web" (Prog.run webAnswer (execute "web") []).1
        (Prog.run webAnswer (execute "web") []).2 ∧
      WithinBounds web.readinessPolicy (Prog.run webAnswer (execute "web") []).2 := by
  have hexec : Prog.Exec (Prog.logged (waitAnswers (some web))) (execute "web") []
      (Prog.run webAnswer (execute "web") []).1 (Prog.run webAnswer (execute "web") []).2 := by
    refine Prog.exec_run (fun log call => ?_) _ _
    cases call <;> exact ⟨by trivial, rfl⟩
  exact ⟨by decide +kernel, (execute_waits "web" web).2 _ _ hexec,
    (execute_waits "web" web).1 _ hexec.reach⟩

end AtlasManager.Service.WaitForRegisteredServiceReadiness
