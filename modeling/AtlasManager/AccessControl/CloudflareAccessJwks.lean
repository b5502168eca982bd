import AtlasManager.Lib.Protocol

/-!
# AtlasManager.AccessControl.CloudflareAccessJwks

The provider of signing keys: a cache with an expiry, a cooldown after a failed
fetch, and one promise that calls share while a fetch is under way.  Calls
are taken apart at their `await`s; between two parts of a call any others may
run.  A fetch, with the reading of its response, ends in any key set or error.

* `Inv` -- what holds between any two parts of calls;
* `provider_safe` -- one fetch at a time, only current keys, none discarded by
  a failure, no fetch within a cooldown.
-/

namespace AtlasManager.AccessControl.Jwks

open AtlasManager.Lib

def CACHE_LIFETIME_MS : Int := 10 * 60 * 1000

def FAILURE_COOLDOWN_MS : Int := 30 * 1000

/-- The error classes of the provider. -/
inductive JwksError where
  | unavailable | invalid | keyNotFound
  deriving DecidableEq

/-- The keys by `kid`. -/
abbrev CachedKeys (K : Type) := List (String × K)

/-- The fields of the provider.  A promise is named by the number of its fetch. -/
structure Provider (K : Type) where
  cachedKeys : Option (CachedKeys K) := none
  cacheExpiresAt : Int := 0
  failedUntil : Int := 0
  inFlightRefresh : Option Nat := none
  lastSuccessfulRefreshAt : Int := 0

inductive Request where
  | resolveKey (kid : String) (time : Int)
  | readReadiness (time : Int)
  deriving DecidableEq

def Request.time : Request → Int
  | .resolveKey _ time => time
  | .readReadiness time => time

inductive Answer (K : Type) where
  | key (k : K)
  | error (e : JwksError)
  | ready | readyWithCachedKeys | unavailable
  deriving DecidableEq

/-- A fetch that was started for a call with a time. -/
inductive Fetch where
  | pending (time : Int)
  | settled (outcome : Except JwksError Unit)

/-- Where a call waits. -/
inductive Task (K : Type) where
  | absent
  /-- At the `await` of the fetch it has started. -/
  | refreshing (r : Request) (fetch : Nat)
  /-- At the `await` of a fetch of another call. -/
  | joined (r : Request) (fetch : Nat)
  /-- `#refresh` has ended, the call has not gone on. -/
  | resuming (r : Request) (outcome : Except JwksError Unit)
  | answered (r : Request) (a : Answer K)

/-- How a fetch has ended. -/
inductive Ending (K : Type) where
  | fetched (time : Int) (keys : CachedKeys K)
  | failed (time : Int)

structure State (K : Type) where
  provider : Provider K := {}
  started : Nat := 0
  fetches : Nat → Option Fetch := fun _ => none
  tasks : Nat → Task K := fun _ => .absent
  /-- The fetches that have ended, the last one first. -/
  history : List (Ending K) := []

inductive Label (K : Type) where
  | call (c : Nat) (r : Request)
  | settle (fetch : Nat) (outcome : Except JwksError (CachedKeys K))
  | resume (c : Nat)

section Steps

variable {K : Type}

def Provider.getCachedKey (p : Provider K) (kid : String) (time : Int) : Option K :=
  match p.cachedKeys with
  | none => none
  | some keys => if p.cacheExpiresAt ≤ time then none else keys.lookup kid

namespace State

def setTask (s : State K) (c : Nat) (task : Task K) : State K :=
  { s with tasks := Function.update s.tasks c task }

/-- `#refresh` up to its `await`: join the fetch under way or start one. -/
def refresh (s : State K) (c : Nat) (r : Request) : State K :=
  match s.provider.inFlightRefresh with
  | some fetch => s.setTask c (.joined r fetch)
  | none =>
    { s.setTask c (.refreshing r s.started) with
      provider := { s.provider with inFlightRefresh := some s.started }
      started := s.started + 1
      fetches := Function.update s.fetches s.started (some (.pending r.time)) }

/-- A call up to its first `await`. -/
def begin (s : State K) (c : Nat) (r : Request) : State K :=
  match r with
  | .resolveKey kid time =>
    match s.provider.getCachedKey kid time with
    | some key => s.setTask c (.answered r (.key key))
    | none =>
      if time < s.provider.failedUntil then s.setTask c (.answered r (.error .unavailable))
      else s.refresh c r
  | .readReadiness time =>
    if s.provider.cachedKeys.isSome ∧ time < s.provider.cacheExpiresAt then
      s.setTask c (.answered r .readyWithCachedKeys)
    else if time < s.provider.failedUntil then s.setTask c (.answered r .unavailable)
    else s.refresh c r

/-- The end of `#loadKeys` for a fetch that was started at `time`. -/
def settle (s : State K) (fetch : Nat) (time : Int) :
    Except JwksError (CachedKeys K) → State K
  | .ok keys =>
    { s with
      provider := { s.provider with
        cachedKeys := some keys
        cacheExpiresAt := time + CACHE_LIFETIME_MS
        lastSuccessfulRefreshAt := time
        failedUntil := 0 }
      fetches := Function.update s.fetches fetch (some (.settled (.ok ())))
      history := .fetched time keys :: s.history }
  | .error e =>
    { s with
      provider := { s.provider with failedUntil := time + FAILURE_COOLDOWN_MS }
      fetches := Function.update s.fetches fetch (some (.settled (.error e)))
      history := .failed time :: s.history }

/-- The `finally` of `#refresh`. -/
def clear (s : State K) (fetch : Nat) : State K :=
  if s.provider.inFlightRefresh = some fetch then
    { s with provider := { s.provider with inFlightRefresh := none } }
  else s

/-- A call after its `await`. -/
def answer (s : State K) : Request → Except JwksError Unit → Answer K
  | .resolveKey _ _, .error e => .error e
  | .resolveKey kid time, .ok _ =>
    match s.provider.getCachedKey kid time with
    | none => .error .keyNotFound
    | some key => .key key
  | .readReadiness _, .error _ => .unavailable
  | .readReadiness _, .ok _ => .ready

end State

/-- One part of a call, or the end of a fetch. -/
def step (s : State K) : Label K → Option (State K)
  | .call c r =>
    match s.tasks c with
    | .absent => some (s.begin c r)
    | _ => none
  | .settle fetch outcome =>
    match s.fetches fetch with
    | some (.pending time) => some (s.settle fetch time outcome)
    | _ => none
  | .resume c =>
    match s.tasks c with
    | .refreshing r fetch =>
      match s.fetches fetch with
      | some (.settled outcome) => some ((s.clear fetch).setTask c (.resuming r outcome))
      | _ => none
    | .joined r fetch =>
      match s.fetches fetch with
      | some (.settled outcome) => some (s.setTask c (.resuming r outcome))
      | _ => none
    | .resuming r outcome => some (s.setTask c (.answered r (s.answer r outcome)))
    | _ => none

end Steps

/-! ## The invariant -/

section Safety

variable {K : Type}

/-- The key set that was fetched last, with the time of its fetch. -/
def latest : List (Ending K) → Option (Int × CachedKeys K)
  | [] => none
  | .fetched time keys :: _ => some (time, keys)
  | .failed _ :: rest => latest rest

/-- The provider knows what the history says. -/
structure Inv (s : State K) : Prop where
  inFlight : ∀ fetch time, s.fetches fetch = some (.pending time) →
    s.provider.inFlightRefresh = some fetch
  cached : s.provider.cachedKeys = (latest s.history).map Prod.snd
  expires : ∀ time keys, latest s.history = some (time, keys) →
    s.provider.cacheExpiresAt = time + CACHE_LIFETIME_MS
  cooldown : ∀ time, s.history.head? = some (.failed time) →
    s.provider.failedUntil = time + FAILURE_COOLDOWN_MS

/-- Cached keys are those of the last fetch that succeeded, before their expiry. -/
theorem Inv.getCachedKey_eq_some {s : State K} (h : Inv s) {kid : String} {time : Int} {key : K} :
    s.provider.getCachedKey kid time = some key ↔ ∃ fetchedAt keys,
      latest s.history = some (fetchedAt, keys) ∧ time < fetchedAt + CACHE_LIFETIME_MS ∧
      keys.lookup kid = some key := by
  rw [Provider.getCachedKey, h.cached]
  cases hlatest : latest s.history with
  | none => simp
  | some last =>
      obtain ⟨fetchedAt, keys⟩ := last
      simp only [Option.map_some, h.expires fetchedAt keys hlatest]
      by_cases hexpired : fetchedAt + CACHE_LIFETIME_MS ≤ time
      · rw [if_pos hexpired]
        constructor
        · intro hnone
          exact absurd hnone (by simp)
        · rintro ⟨_, _, heq, hlt, -⟩
          cases heq
          omega
      · rw [if_neg hexpired]
        constructor
        · intro hkey
          exact ⟨fetchedAt, keys, rfl, by omega, hkey⟩
        · rintro ⟨_, _, heq, -, hkey⟩
          cases heq
          exact hkey

theorem inv_start : Inv ({} : State K) where
  inFlight _ _ h := absurd h (by simp)
  cached := rfl
  expires _ _ h := absurd h (by simp [latest])
  cooldown _ h := absurd h (by simp)

namespace Inv

variable {s : State K}

theorem setTask (h : Inv s) (c : Nat) (task : Task K) : Inv (s.setTask c task) :=
  ⟨h.inFlight, h.cached, h.expires, h.cooldown⟩

/-- A new fetch is the only one. -/
theorem refresh (h : Inv s) (c : Nat) (r : Request) : Inv (s.refresh c r) := by
  rw [State.refresh]
  cases hflight : s.provider.inFlightRefresh with
  | some fetch => exact h.setTask c _
  | none =>
      refine ⟨?_, h.cached, h.expires, h.cooldown⟩
      intro fetch time hpending
      by_cases hnew : fetch = s.started
      · rw [hnew]
      · have hold : s.fetches fetch = some (.pending time) := by
          simpa [Function.update_of_ne hnew] using hpending
        have hsome := h.inFlight fetch time hold
        rw [hflight] at hsome
        exact absurd hsome (by simp)

theorem begin (h : Inv s) (c : Nat) (r : Request) : Inv (s.begin c r) := by
  cases r with
  | resolveKey kid time =>
      simp only [State.begin]
      cases s.provider.getCachedKey kid time with
      | some key => exact h.setTask c _
      | none =>
          dsimp only
          by_cases hcool : time < s.provider.failedUntil
          · rw [if_pos hcool]
            exact h.setTask c _
          · rw [if_neg hcool]
            exact h.refresh c _
  | readReadiness time =>
      simp only [State.begin]
      by_cases hcached : s.provider.cachedKeys.isSome ∧ time < s.provider.cacheExpiresAt
      · rw [if_pos hcached]
        exact h.setTask c _
      rw [if_neg hcached]
      by_cases hcool : time < s.provider.failedUntil
      · rw [if_pos hcool]
        exact h.setTask c _
      · rw [if_neg hcool]
        exact h.refresh c _

/-- Only a fetch that succeeds changes the cache. -/
theorem settle (h : Inv s) {fetch : Nat} {time : Int}
    (outcome : Except JwksError (CachedKeys K)) : Inv (s.settle fetch time outcome) := by
  have hpending : ∀ o other t, Function.update s.fetches fetch (some (.settled o)) other =
      some (.pending t) → s.provider.inFlightRefresh = some other := by
    intro o other t hother
    by_cases hsame : other = fetch
    · rw [hsame] at hother
      exact absurd hother (by simp)
    · rw [Function.update_of_ne hsame] at hother
      exact h.inFlight other t hother
  cases outcome with
  | ok keys =>
      refine ⟨hpending _, rfl, ?_, ?_⟩
      · intro fetchedAt keys' hlatest
        cases hlatest
        rfl
      · intro failedAt hhead
        exact absurd hhead (by simp [State.settle])
  | error e =>
      refine ⟨hpending _, h.cached, h.expires, ?_⟩
      intro failedAt hhead
      cases hhead
      rfl

/-- Only the promise of a fetch that has ended is forgotten. -/
theorem clear (h : Inv s) {fetch : Nat} {outcome : Except JwksError Unit}
    (hsettled : s.fetches fetch = some (.settled outcome)) : Inv (s.clear fetch) := by
  rw [State.clear]
  by_cases hmine : s.provider.inFlightRefresh = some fetch
  · rw [if_pos hmine]
    refine ⟨?_, h.cached, h.expires, h.cooldown⟩
    intro other time hpending
    have hother := h.inFlight other time hpending
    rw [hmine, Option.some.injEq] at hother
    rw [← hother] at hpending
    have hfetch : s.fetches fetch = some (.pending time) := hpending
    rw [hsettled] at hfetch
    exact absurd hfetch (by simp)
  · rw [if_neg hmine]
    exact h

end Inv

/-- What a step can be. -/
theorem step_cases {s s' : State K} {l : Label K} (h : step s l = some s') :
    (∃ c r, l = .call c r ∧ s' = s.begin c r) ∨
    (∃ fetch time outcome, l = .settle fetch outcome ∧
      s.fetches fetch = some (.pending time) ∧ s' = s.settle fetch time outcome) ∨
    (∃ c r fetch outcome, l = .resume c ∧ s.fetches fetch = some (.settled outcome) ∧
      (s' = (s.clear fetch).setTask c (.resuming r outcome) ∨
        s' = s.setTask c (.resuming r outcome))) ∨
    ∃ c r outcome, l = .resume c ∧ s' = s.setTask c (.answered r (s.answer r outcome)) := by
  cases l with
  | call c r =>
      simp only [step] at h
      split at h
      · exact .inl ⟨c, r, rfl, (Option.some.inj h).symm⟩
      · exact absurd h (by simp)
  | settle fetch outcome =>
      simp only [step] at h
      split at h
      · next time hpending =>
          exact .inr (.inl ⟨fetch, time, outcome, rfl, hpending, (Option.some.inj h).symm⟩)
      · exact absurd h (by simp)
  | resume c =>
      simp only [step] at h
      split at h
      · next r fetch _ =>
          split at h
          · next outcome hsettled =>
              exact .inr (.inr (.inl ⟨c, r, fetch, outcome, rfl, hsettled,
                .inl (Option.some.inj h).symm⟩))
          · exact absurd h (by simp)
      · next r fetch _ =>
          split at h
          · next outcome hsettled =>
              exact .inr (.inr (.inl ⟨c, r, fetch, outcome, rfl, hsettled,
                .inr (Option.some.inj h).symm⟩))
          · exact absurd h (by simp)
      · next r outcome _ =>
          exact .inr (.inr (.inr ⟨c, r, outcome, rfl, (Option.some.inj h).symm⟩))
      · exact absurd h (by simp)

theorem inv_step {s s' : State K} {l : Label K} (h : Inv s) (hstep : step s l = some s') :
    Inv s' := by
  rcases step_cases hstep with ⟨c, r, -, rfl⟩ | ⟨fetch, time, outcome, -, -, rfl⟩ |
    ⟨c, r, fetch, outcome, -, hsettled, rfl | rfl⟩ | ⟨c, r, outcome, -, rfl⟩
  · exact h.begin c r
  · exact h.settle outcome
  · exact (h.clear hsettled).setTask c _
  · exact h.setTask c _
  · exact h.setTask c _

theorem inv_reachable {s : State K} (h : Protocol.Reachable step ({} : State K) s) : Inv s :=
  h.invariant inv_start fun hinv _ hstep => inv_step hinv hstep

/-! ## The provider is safe -/

/-- What the provider promises between any two steps and of the next one. -/
structure Safe (s : State K) : Prop where
  oneInFlight : ∀ f g t u, s.fetches f = some (.pending t) → s.fetches g = some (.pending u) → f = g
  /-- A key that is returned is one of the last key set that was fetched, before its expiry. -/
  current : ∀ l s' c kid time key, step s l = some s' →
    s'.tasks c = .answered (.resolveKey kid time) (.key key) →
    s.tasks c ≠ .answered (.resolveKey kid time) (.key key) →
    ∃ fetchedAt keys, latest s.history = some (fetchedAt, keys) ∧
      time < fetchedAt + CACHE_LIFETIME_MS ∧ keys.lookup kid = some key
  /-- Whatever has failed since, the last key set serves calls until it expires. -/
  kept : ∀ fetchedAt keys c kid time key, latest s.history = some (fetchedAt, keys) →
    time < fetchedAt + CACHE_LIFETIME_MS → keys.lookup kid = some key → s.tasks c = .absent →
    ∃ s', step s (.call c (.resolveKey kid time)) = some s' ∧
      s'.tasks c = .answered (.resolveKey kid time) (.key key)
  /-- A call that starts a fetch is not within the cooldown of the last one. -/
  cooled : ∀ l s' failedAt, step s l = some s' → s'.started ≠ s.started →
    s.history.head? = some (.failed failedAt) →
    ∃ c r, l = .call c r ∧ failedAt + FAILURE_COOLDOWN_MS ≤ r.time

theorem answer_eq_key {s : State K} {kid : String} {time : Int} {outcome : Except JwksError Unit}
    {key : K} (h : s.answer (.resolveKey kid time) outcome = .key key) :
    s.provider.getCachedKey kid time = some key := by
  cases outcome with
  | error e => exact absurd h (by simp [State.answer])
  | ok _ =>
      simp only [State.answer] at h
      split at h
      · exact absurd h (by simp)
      · next found hfound =>
          cases h
          exact hfound

theorem refresh_tasks_ne {s : State K} {c : Nat} {r : Request} {request : Request} {a : Answer K} :
    (s.refresh c r).tasks c ≠ .answered request a := by
  rw [State.refresh]
  split <;> simp [State.setTask]

theorem refresh_tasks_of_ne {s : State K} {c d : Nat} {r : Request} (h : d ≠ c) :
    (s.refresh c r).tasks d = s.tasks d := by
  rw [State.refresh]
  split <;> simp [State.setTask, h]

@[simp] theorem setTask_tasks_of_ne {s : State K} {c d : Nat} {task : Task K} (h : d ≠ c) :
    (s.setTask c task).tasks d = s.tasks d := by
  simp [State.setTask, h]

@[simp] theorem setTask_tasks_self {s : State K} {c : Nat} {task : Task K} :
    (s.setTask c task).tasks c = task := by
  simp [State.setTask]

theorem begin_tasks_of_ne {s : State K} {c d : Nat} {r : Request} (h : d ≠ c) :
    (s.begin c r).tasks d = s.tasks d := by
  cases r with
  | resolveKey kid time =>
      simp only [State.begin]
      split
      · exact setTask_tasks_of_ne h
      · split
        · exact setTask_tasks_of_ne h
        · exact refresh_tasks_of_ne h
  | readReadiness time =>
      simp only [State.begin]
      split
      · exact setTask_tasks_of_ne h
      · split
        · exact setTask_tasks_of_ne h
        · exact refresh_tasks_of_ne h

/-- A call that is answered with a key at once has found it in the cache. -/
theorem begin_answered {s : State K} {c : Nat} {r : Request} {kid : String} {time : Int} {key : K}
    (h : (s.begin c r).tasks c = .answered (.resolveKey kid time) (.key key)) :
    s.provider.getCachedKey kid time = some key := by
  cases r with
  | resolveKey kid' time' =>
      simp only [State.begin] at h
      split at h
      · next found hfound =>
          rw [setTask_tasks_self] at h
          cases h
          exact hfound
      · split at h
        · rw [setTask_tasks_self] at h
          exact absurd h (by simp)
        · exact absurd h refresh_tasks_ne
  | readReadiness time' =>
      simp only [State.begin] at h
      split at h
      · rw [setTask_tasks_self] at h
        exact absurd h (by simp)
      · split at h
        · rw [setTask_tasks_self] at h
          exact absurd h (by simp)
        · exact absurd h refresh_tasks_ne

/-- Only a call whose time has passed the cooldown starts a fetch. -/
theorem begin_started {s : State K} {c : Nat} {r : Request}
    (h : (s.begin c r).started ≠ s.started) : s.provider.failedUntil ≤ r.time := by
  by_contra hcool
  rw [Int.not_le] at hcool
  apply h
  cases r with
  | resolveKey kid time =>
      have hearly : time < s.provider.failedUntil := hcool
      simp only [State.begin]
      split
      · rfl
      · rw [if_pos hearly]
        rfl
  | readReadiness time =>
      have hearly : time < s.provider.failedUntil := hcool
      simp only [State.begin]
      split
      · rfl
      · simp [State.setTask]

theorem clear_tasks {s : State K} {fetch : Nat} : (s.clear fetch).tasks = s.tasks := by
  rw [State.clear]
  split <;> rfl

theorem clear_started {s : State K} {fetch : Nat} : (s.clear fetch).started = s.started := by
  rw [State.clear]
  split <;> rfl

theorem settle_tasks {s : State K} {fetch : Nat} {time : Int}
    {outcome : Except JwksError (CachedKeys K)} : (s.settle fetch time outcome).tasks = s.tasks := by
  cases outcome <;> rfl

theorem settle_started {s : State K} {fetch : Nat} {time : Int}
    {outcome : Except JwksError (CachedKeys K)} :
    (s.settle fetch time outcome).started = s.started := by
  cases outcome <;> rfl

theorem safe_of_inv {s : State K} (h : Inv s) : Safe s where
  oneInFlight f g t u hf hg := by
    have hsame := (h.inFlight f t hf).symm.trans (h.inFlight g u hg)
    exact Option.some.inj hsame
  current l s' c kid time key hstep hanswer hbefore := by
    rw [← h.getCachedKey_eq_some]
    rcases step_cases hstep with ⟨d, r, -, rfl⟩ | ⟨fetch, at_, outcome, -, -, rfl⟩ |
      ⟨d, r, fetch, outcome, -, -, rfl | rfl⟩ | ⟨d, r, outcome, -, rfl⟩
    · by_cases hd : c = d
      · rw [hd] at hanswer
        exact begin_answered hanswer
      · rw [begin_tasks_of_ne hd] at hanswer
        exact absurd hanswer hbefore
    · rw [settle_tasks] at hanswer
      exact absurd hanswer hbefore
    · by_cases hd : c = d
      · rw [hd, setTask_tasks_self] at hanswer
        exact absurd hanswer (by simp)
      · rw [setTask_tasks_of_ne hd, clear_tasks] at hanswer
        exact absurd hanswer hbefore
    · by_cases hd : c = d
      · rw [hd, setTask_tasks_self] at hanswer
        exact absurd hanswer (by simp)
      · rw [setTask_tasks_of_ne hd] at hanswer
        exact absurd hanswer hbefore
    · by_cases hd : c = d
      · rw [hd, setTask_tasks_self] at hanswer
        obtain ⟨rfl, hkey⟩ : r = .resolveKey kid time ∧ s.answer r outcome = .key key := by
          injection hanswer with hr ha
          exact ⟨hr, ha⟩
        exact answer_eq_key hkey
      · rw [setTask_tasks_of_ne hd] at hanswer
        exact absurd hanswer hbefore
  kept fetchedAt keys c kid time key hlatest htime hkey hc := by
    have hcached : s.provider.getCachedKey kid time = some key :=
      h.getCachedKey_eq_some.mpr ⟨fetchedAt, keys, hlatest, htime, hkey⟩
    refine ⟨s.begin c (.resolveKey kid time), by simp only [step, hc], ?_⟩
    simp only [State.begin, hcached]
    exact setTask_tasks_self
  cooled l s' failedAt hstep hstarted hfailed := by
    rcases step_cases hstep with ⟨d, r, hl, rfl⟩ | ⟨fetch, at_, outcome, -, -, rfl⟩ |
      ⟨d, r, fetch, outcome, -, -, rfl | rfl⟩ | ⟨d, r, outcome, -, rfl⟩
    · have hcool := begin_started hstarted
      rw [h.cooldown failedAt hfailed] at hcool
      exact ⟨d, r, hl, hcool⟩
    · exact absurd settle_started hstarted
    · exact absurd clear_started hstarted
    · exact absurd rfl hstarted
    · exact absurd rfl hstarted

/-- **The provider of signing keys is safe in every interleaving.** -/
theorem provider_safe (s : State K) (h : Protocol.Reachable step ({} : State K) s) : Safe s :=
  safe_of_inv (inv_reachable h)

end Safety

/-! ## A shared fetch -/

/-- Two calls share a fetch that fails; within the cooldown a third is turned
away, after it a fourth fetches. -/
def sharedFetch : List (Label Nat) :=
  [.call 0 (.resolveKey "a" 0), .call 1 (.readReadiness 5), .settle 0 (.error .invalid), .resume 1,
    .resume 0, .resume 1, .resume 0, .call 2 (.resolveKey "a" 29999),
    .call 3 (.resolveKey "a" 30000), .settle 1 (.ok [("a", 7)]), .resume 3]

theorem provider_safe_shared :
    ∃ h : (Protocol.run step ({} : State Nat) sharedFetch).isSome,
      Safe ((Protocol.run step ({} : State Nat) sharedFetch).get h) :=
  ⟨by decide +kernel, provider_safe _ (Protocol.reachable_get (by decide +kernel))⟩

end AtlasManager.AccessControl.Jwks
