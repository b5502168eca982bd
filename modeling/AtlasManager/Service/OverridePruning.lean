import AtlasManager.Scheduling.Policy
import AtlasManager.Lib.Prog
import AtlasManager.Lib.Utf

/-!
# AtlasManager.Service.OverridePruning

The pass that removes expired overrides, while others save and remove them.

* `execute` -- the pass, as a program over its ports;
* `Interleaved` -- before each call of the pass others may use the store;
* `prunes_only_expired` -- what the pass may remove, in every interleaving.
-/

namespace AtlasManager.Service.OverridePruning

open AtlasManager.Lib Scheduling

/-! ## The store -/

structure StoredServiceAvailabilityOverride where
  serviceId : String
  override : ServiceAvailabilityOverride
  deriving DecidableEq

abbrev Overrides := List StoredServiceAvailabilityOverride

def isSameServiceAvailabilityOverride (left right : ServiceAvailabilityOverride) : Bool :=
  left.kind = right.kind && left.expiresAt = right.expiresAt

/-- An override for a time that is not over at the reference instant. -/
def createServiceAvailabilityOverride (kind : ServiceAvailabilityOverrideKind)
    (expiresAt : Timestamp) (referenceInstant : Int) : Option ServiceAvailabilityOverride :=
  if expiresAt.ms ≤ referenceInstant then none else some ⟨kind, expiresAt⟩

def findByServiceId (serviceId : String) (current : Overrides) :
    Option ServiceAvailabilityOverride :=
  (current.find? fun stored => stored.serviceId = serviceId).map (·.override)

def save (serviceId : String) (override : ServiceAvailabilityOverride) (current : Overrides) :
    Overrides :=
  List.mergeSort (current.filter (fun stored => stored.serviceId ≠ serviceId) ++
    [⟨serviceId, override⟩]) fun left right =>
      decide (compareCodeUnits left.serviceId right.serviceId ≠ .gt)

def removeByServiceId (serviceId : String) (current : Overrides) : Overrides :=
  current.filter fun stored => stored.serviceId ≠ serviceId

/-- What is left when the override is the expected one. -/
def removeByServiceIdIfMatches (serviceId : String) (expected : ServiceAvailabilityOverride)
    (current : Overrides) : Option Overrides :=
  match findByServiceId serviceId current with
  | none => none
  | some override =>
    if isSameServiceAvailabilityOverride override expected then
      some (removeByServiceId serviceId current)
    else none

/-! ## The pass -/

inductive PruneCall where
  | listRegisteredServices
  | now
  | findByServiceId (serviceId : String)
  | removeByServiceIdIfMatches (serviceId : String) (expected : ServiceAvailabilityOverride)

/-- A clock may read no date at all, `none`; a removal tells whether it has removed. -/
abbrev PruneCall.Answer : PruneCall → Type
  | listRegisteredServices => List String
  | now => Option Int
  | findByServiceId _ => Option ServiceAvailabilityOverride
  | removeByServiceIdIfMatches _ _ => Bool

abbrev PruneProg := Prog PruneCall PruneCall.Answer String

def ask (call : PruneCall) : PruneProg call.Answer := Prog.perform call

inductive PruneKind where
  | noOverride
  | active
  | removed
  | notRemoved
  | failed (error : String)
  deriving DecidableEq, Repr

structure PruneResult where
  kind : PruneKind
  serviceId : String
  deriving DecidableEq

/-- The block of the `try` for one service. -/
def pruneService (pruningInstant : Int) (serviceId : String) : PruneProg PruneKind := do
  match ← ask (.findByServiceId serviceId) with
  | none => return .noOverride
  | some override =>
    if ¬ isServiceAvailabilityOverrideExpiredAt override pruningInstant then return .active
    else
      let removed ← ask (.removeByServiceIdIfMatches serviceId override)
      return if removed then .removed else .notRemoved

def pruneServices (pruningInstant : Int) : List String → List PruneResult → PruneProg (List PruneResult)
  | [], results => return results
  | serviceId :: services, results => do
    match ← (pruneService pruningInstant serviceId).attempt with
    | .ok kind => pruneServices pruningInstant services (results ++ [⟨kind, serviceId⟩])
    | .error error =>
      pruneServices pruningInstant services (results ++ [⟨.failed error, serviceId⟩])

def execute : PruneProg (List PruneResult) := do
  let services ← ask .listRegisteredServices
  match ← ask .now with
  | none => .throw "Invalid service availability evaluation instant"
  | some pruningInstant => pruneServices pruningInstant services []

/-! ## Interleavings -/

/-- What has happened in the store and with the clock. -/
inductive StoreEvent where
  /-- Others have saved an override that was requested at this reading of the clock. -/
  | saved (serviceId : String) (override : ServiceAvailabilityOverride) (reading : Int)
  | removedByOthers (serviceId : String)
  /-- The pass has read the clock. -/
  | pruningInstant (reading : Int)
  /-- The pass has removed what was stored. -/
  | pruned (serviceId : String) (stored : ServiceAvailabilityOverride)
  deriving DecidableEq

structure World where
  store : Overrides
  log : List StoreEvent

/-- One operation of others.  Whatever they save was created at a reading of the clock. -/
inductive OtherStep : World → World → Prop where
  | save {w : World} (serviceId : String) (kind : ServiceAvailabilityOverrideKind)
      (expiresAt : Timestamp) (reading : Int) {override : ServiceAvailabilityOverride} :
      createServiceAvailabilityOverride kind expiresAt reading = some override →
      OtherStep w ⟨save serviceId override w.store, .saved serviceId override reading :: w.log⟩
  | remove {w : World} (serviceId : String) :
      OtherStep w ⟨removeByServiceId serviceId w.store, .removedByOthers serviceId :: w.log⟩

/-- What a call of the pass does to the store; any call may fail, and a removal that fails may
have been made. -/
inductive Acts : World → (call : PruneCall) → Except String call.Answer → World → Prop where
  | fails {w : World} (call : PruneCall) (error : String) : Acts w call (.error error) w
  | lists {w : World} (services : List String) : Acts w .listRegisteredServices (.ok services) w
  | reads {w : World} (reading : Int) :
      Acts w .now (.ok (some reading)) ⟨w.store, .pruningInstant reading :: w.log⟩
  | readsNoDate {w : World} : Acts w .now (.ok none) w
  | finds {w : World} (serviceId : String) :
      Acts w (.findByServiceId serviceId) (.ok (findByServiceId serviceId w.store)) w
  | keeps {w : World} {serviceId : String} {expected : ServiceAvailabilityOverride} :
      removeByServiceIdIfMatches serviceId expected w.store = none →
      Acts w (.removeByServiceIdIfMatches serviceId expected) (.ok false) w
  | removes {w : World} {serviceId : String} {expected stored : ServiceAvailabilityOverride}
      {rest : Overrides} {answer : Except String Bool} :
      removeByServiceIdIfMatches serviceId expected w.store = some rest →
      findByServiceId serviceId w.store = some stored →
      answer = .ok true ∨ (∃ error, answer = .error error) →
      Acts w (.removeByServiceIdIfMatches serviceId expected) answer
        ⟨rest, .pruned serviceId stored :: w.log⟩

/-- Before a call of the pass others use the store, as often as they like. -/
def Interleaved : Prog.Handler PruneCall PruneCall.Answer String World := fun w call answer w' =>
  ∃ between, Relation.ReflTransGen OtherStep w between ∧ Acts between call answer w'

/-- What the pass may remove: a stored override that has expired when the pass reads the clock,
so none that was saved from then on. -/
structure PrunesOnlyExpired (log : List StoreEvent) : Prop where
  expired : ∀ serviceId stored, .pruned serviceId stored ∈ log →
    ∃ reading, .pruningInstant reading ∈ log ∧
      isServiceAvailabilityOverrideExpiredAt stored reading = true
  keepsNew : ∀ serviceId override saved reading, .saved serviceId override saved ∈ log →
    .pruningInstant reading ∈ log → reading ≤ saved → .pruned serviceId override ∉ log

/-! ## One operation -/

/-- A removal that matches removes the expected override. -/
theorem eq_of_removeByServiceIdIfMatches {serviceId : String}
    {expected stored : ServiceAvailabilityOverride} {current rest : Overrides}
    (hremove : removeByServiceIdIfMatches serviceId expected current = some rest)
    (hfind : findByServiceId serviceId current = some stored) : stored = expected := by
  rw [removeByServiceIdIfMatches, hfind] at hremove
  dsimp only at hremove
  by_cases hsame : isSameServiceAvailabilityOverride stored expected = true
  · obtain ⟨kind, expiresAt⟩ := stored
    obtain ⟨kind', expiresAt'⟩ := expected
    simpa [isSameServiceAvailabilityOverride] using hsame
  · rw [if_neg hsame] at hremove
    cases hremove

theorem lt_of_createServiceAvailabilityOverride {kind : ServiceAvailabilityOverrideKind}
    {expiresAt : Timestamp} {reading : Int} {override : ServiceAvailabilityOverride}
    (h : createServiceAvailabilityOverride kind expiresAt reading = some override) :
    reading < override.expiresAt.ms := by
  unfold createServiceAvailabilityOverride at h
  by_cases hpast : expiresAt.ms ≤ reading
  · rw [if_pos hpast] at h
    cases h
  · rw [if_neg hpast] at h
    obtain rfl := Option.some.inj h
    exact not_le.mp hpast

/-- Overrides are saved before they expire. -/
def SavedInTime (log : List StoreEvent) : Prop :=
  ∀ serviceId override reading, .saved serviceId override reading ∈ log →
    reading < override.expiresAt.ms

/-- The pass has not read the clock yet, and has removed nothing. -/
structure Before (log : List StoreEvent) : Prop where
  saved : SavedInTime log
  unread : ∀ reading, .pruningInstant reading ∉ log
  nothing : ∀ serviceId stored, .pruned serviceId stored ∉ log

/-- The pass has read the clock, and what it has removed had expired by then. -/
structure Since (instant : Int) (log : List StoreEvent) : Prop where
  saved : SavedInTime log
  read : ∀ reading, .pruningInstant reading ∈ log ↔ reading = instant
  expired : ∀ serviceId stored, .pruned serviceId stored ∈ log →
    isServiceAvailabilityOverrideExpiredAt stored instant = true

theorem Before.prunesOnlyExpired {log : List StoreEvent} (h : Before log) :
    PrunesOnlyExpired log where
  expired serviceId stored hmem := absurd hmem (h.nothing serviceId stored)
  keepsNew _ _ _ reading _ hread := absurd hread (h.unread reading)

theorem Since.prunesOnlyExpired {instant : Int} {log : List StoreEvent} (h : Since instant log) :
    PrunesOnlyExpired log where
  expired serviceId stored hmem := ⟨instant, (h.read instant).mpr rfl, h.expired serviceId stored hmem⟩
  keepsNew serviceId override saved reading hsaved hread hle hpruned := by
    -- it expires after it was saved, and so after the pass has read the clock
    obtain rfl := (h.read reading).mp hread
    have hlater := h.saved serviceId override saved hsaved
    have hexpired := h.expired serviceId override hpruned
    rw [isServiceAvailabilityOverrideExpiredAt, decide_eq_true_eq] at hexpired
    omega

/-! ## Interference -/

theorem Before.others {w w' : World} (h : Before w.log) (hothers : OtherStep w w') :
    Before w'.log := by
  cases hothers with
  | save serviceId kind expiresAt reading hcreate =>
      have hlt := lt_of_createServiceAvailabilityOverride hcreate
      refine ⟨?_, by simpa using h.unread, by simpa using h.nothing⟩
      intro id override other hmem
      rcases List.mem_cons.mp hmem with heq | hmem
      · obtain ⟨-, rfl, rfl⟩ := StoreEvent.saved.inj heq
        exact hlt
      · exact h.saved id override other hmem
  | remove serviceId =>
      exact ⟨by simpa [SavedInTime] using h.saved, by simpa using h.unread, by simpa using h.nothing⟩

theorem Since.others {instant : Int} {w w' : World} (h : Since instant w.log)
    (hothers : OtherStep w w') : Since instant w'.log := by
  cases hothers with
  | save serviceId kind expiresAt reading hcreate =>
      have hlt := lt_of_createServiceAvailabilityOverride hcreate
      refine ⟨?_, by simpa using h.read, by simpa using h.expired⟩
      intro id override other hmem
      rcases List.mem_cons.mp hmem with heq | hmem
      · obtain ⟨-, rfl, rfl⟩ := StoreEvent.saved.inj heq
        exact hlt
      · exact h.saved id override other hmem
  | remove serviceId =>
      exact ⟨by simpa [SavedInTime] using h.saved, by simpa using h.read, by simpa using h.expired⟩

theorem Before.reflTransGen {w w' : World} (h : Before w.log)
    (hothers : Relation.ReflTransGen OtherStep w w') : Before w'.log := by
  induction hothers with
  | refl => exact h
  | tail _ hstep ih => exact ih.others hstep

theorem Since.reflTransGen {instant : Int} {w w' : World} (h : Since instant w.log)
    (hothers : Relation.ReflTransGen OtherStep w w') : Since instant w'.log := by
  induction hothers with
  | refl => exact h
  | tail _ hstep ih => exact ih.others hstep

/-! ## The pass -/

/-- After it has read the clock, the pass only asks to remove what had expired by then. -/
def AsksFor (instant : Int) : PruneCall → Prop
  | .findByServiceId _ => True
  | .removeByServiceIdIfMatches _ expected =>
    isServiceAvailabilityOverrideExpiredAt expected instant = true
  | _ => False

theorem Since.call {instant : Int} {w w' : World} {call : PruneCall}
    {answer : Except String call.Answer} (hcall : AsksFor instant call) (h : Since instant w.log)
    (hstep : Interleaved w call answer w') : Since instant w'.log := by
  obtain ⟨between, hothers, hacts⟩ := hstep
  have hbetween := h.reflTransGen hothers
  cases hacts with
  | fails call error => exact hbetween
  | lists services => exact hcall.elim
  | reads reading => exact hcall.elim
  | readsNoDate => exact hcall.elim
  | finds serviceId => exact hbetween
  | keeps _ => exact hbetween
  | removes hremove hfind _ =>
      obtain rfl := eq_of_removeByServiceIdIfMatches hremove hfind
      refine ⟨by simpa [SavedInTime] using hbetween.saved, by simpa using hbetween.read, ?_⟩
      intro id stored hmem
      rcases List.mem_cons.mp hmem with heq | hmem
      · obtain ⟨-, rfl⟩ := StoreEvent.pruned.inj heq
        exact hcall
      · exact hbetween.expired id stored hmem

theorem only_pruneService (instant : Int) (serviceId : String) :
    Prog.Only (AsksFor instant) (pruneService instant serviceId) := by
  refine Prog.Only.bind (Prog.only_perform.mpr trivial) fun found => ?_
  cases found with
  | none => exact Prog.only_pure
  | some override =>
      dsimp only
      by_cases hexpired : isServiceAvailabilityOverrideExpiredAt override instant = true
      · rw [if_neg (not_not.mpr hexpired)]
        exact Prog.Only.bind (Prog.only_perform.mpr hexpired) fun removed => Prog.only_pure
      · rw [if_pos hexpired]
        exact Prog.only_pure

theorem only_pruneServices (instant : Int) (services : List String) (results : List PruneResult) :
    Prog.Only (AsksFor instant) (pruneServices instant services results) := by
  induction services generalizing results with
  | nil => exact Prog.only_pure
  | cons serviceId services ih =>
      rw [pruneServices]
      refine Prog.Only.bind (Prog.only_attempt.mpr (only_pruneService instant serviceId)) fun kind => ?_
      cases kind with
      | ok kind => exact ih _
      | error error => exact ih _

/-- What a call in front of the clock's reading does. -/
theorem Before.fails_or_acts {w w' : World} {call : PruneCall} {answer : Except String call.Answer}
    (h : Before w.log) (hstep : Interleaved w call answer w') :
    ∃ between, Before between.log ∧ Acts between call answer w' := by
  obtain ⟨between, hothers, hacts⟩ := hstep
  exact ⟨between, h.reflTransGen hothers, hacts⟩

theorem execute_spec {w : World} (h : Before w.log) :
    Prog.Spec Interleaved (fun w' => PrunesOnlyExpired w'.log) execute
      (fun _ w' => PrunesOnlyExpired w'.log) w := by
  rw [execute, Prog.spec_bind, ask, Prog.spec_perform]
  intro services w₁ hstep
  obtain ⟨between, hbetween, hacts⟩ := h.fails_or_acts hstep
  have h₁ : Before w₁.log := by cases hacts <;> exact hbetween
  refine ⟨h₁.prunesOnlyExpired, ?_⟩
  cases services with
  | error error => exact h₁.prunesOnlyExpired
  | ok services =>
      dsimp only
      rw [Prog.spec_bind, ask, Prog.spec_perform]
      intro reading w₂ hstep
      obtain ⟨between, hbetween, hacts⟩ := h₁.fails_or_acts hstep
      cases hacts with
      | fails call error => exact ⟨hbetween.prunesOnlyExpired, hbetween.prunesOnlyExpired⟩
      | readsNoDate => exact ⟨hbetween.prunesOnlyExpired, hbetween.prunesOnlyExpired⟩
      | reads instant =>
          have hsince : Since instant (.pruningInstant instant :: between.log) := by
            refine ⟨by simpa [SavedInTime] using hbetween.saved, fun reading => ?_, ?_⟩
            · simp [hbetween.unread reading, StoreEvent.pruningInstant.injEq]
            · intro id stored hmem
              simp [hbetween.nothing id stored] at hmem
          refine ⟨hsince.prunesOnlyExpired, ?_⟩
          have hcalls : ∀ (world : World) (call : PruneCall) (answer : Except String call.Answer)
              (world' : World), AsksFor instant call → Since instant world.log →
              Interleaved world call answer world' → Since instant world'.log :=
            fun _ _ _ _ hcall hsince hstep => hsince.call hcall hstep
          have hrest := Prog.spec_of_only (J := fun world : World => Since instant world.log)
            (w := ⟨between.store, .pruningInstant instant :: between.log⟩)
            (only_pruneServices instant services []) hcalls hsince
          exact hrest.mono (fun _ h => h.prunesOnlyExpired) fun _ _ h => h.prunesOnlyExpired

/-- **Only expired overrides are pruned**: from every store, in every interleaving of the pass
with saves and removals of others, whatever fails and wherever the pass stops, it has removed
overrides that had expired when it read the clock, and none that was saved from then on. -/
theorem prunes_only_expired (store : Overrides) (w : World)
    (hreach : Prog.Reach Interleaved execute ⟨store, []⟩ w) : PrunesOnlyExpired w.log := by
  have hbefore : Before [] := ⟨by simp [SavedInTime], by simp, by simp⟩
  exact (execute_spec (w := ⟨store, []⟩) hbefore).reach hbefore.prunesOnlyExpired hreach

/-! ## A pass that meets a save -/

def keepUntil (ms : Int) (h : -8640000000000000 ≤ ms ∧ ms ≤ 8640000000000000) :
    ServiceAvailabilityOverride :=
  ⟨.keepAvailable, ⟨ms, h⟩⟩

/-- Both have expired at `100`. -/
def expiredStore : Overrides :=
  [⟨"docs", keepUntil 50 (by decide)⟩, ⟨"web", keepUntil 60 (by decide)⟩]

/-- Others save a new override for `web` while the pass is about to remove the old one. -/
def saveInFront (w : World) : World :=
  ⟨save "web" (keepUntil 200 (by decide)) w.store,
    .saved "web" (keepUntil 200 (by decide)) 120 :: w.log⟩

def meetsSave (w : World) : (call : PruneCall) → Except String call.Answer × World
  | .listRegisteredServices => (.ok ["docs", "web"], w)
  | .now => (.ok (some 100), ⟨w.store, .pruningInstant 100 :: w.log⟩)
  | .findByServiceId serviceId => (.ok (findByServiceId serviceId w.store), w)
  | .removeByServiceIdIfMatches serviceId expected =>
    let before := if serviceId = "web" then saveInFront w else w
    match findByServiceId serviceId before.store,
        removeByServiceIdIfMatches serviceId expected before.store with
    | some stored, some rest => (.ok true, ⟨rest, .pruned serviceId stored :: before.log⟩)
    | _, _ => (.ok false, before)

theorem reflTransGen_saveInFront (w : World) : Relation.ReflTransGen OtherStep w (saveInFront w) :=
  .single (.save "web" .keepAvailable ⟨200, by decide⟩ 120 (by decide))

theorem findByServiceId_of_remove {serviceId : String} {expected : ServiceAvailabilityOverride}
    {current rest : Overrides}
    (h : removeByServiceIdIfMatches serviceId expected current = some rest) :
    ∃ stored, findByServiceId serviceId current = some stored := by
  cases hfind : findByServiceId serviceId current with
  | none => simp [removeByServiceIdIfMatches, hfind] at h
  | some stored => exact ⟨stored, rfl⟩

theorem interleaved_meetsSave (w : World) (call : PruneCall) :
    Interleaved w call (meetsSave w call).1 (meetsSave w call).2 := by
  cases call with
  | listRegisteredServices => exact ⟨w, .refl, .lists _⟩
  | now => exact ⟨w, .refl, .reads _⟩
  | findByServiceId serviceId => exact ⟨w, .refl, .finds serviceId⟩
  | removeByServiceIdIfMatches serviceId expected =>
      refine ⟨if serviceId = "web" then saveInFront w else w, ?_, ?_⟩
      · by_cases hweb : serviceId = "web"
        · rw [if_pos hweb]
          exact reflTransGen_saveInFront w
        · rw [if_neg hweb]
      · rw [meetsSave]
        cases hremove : removeByServiceIdIfMatches serviceId expected
            (if serviceId = "web" then saveInFront w else w).store with
        | none =>
            cases findByServiceId serviceId
                (if serviceId = "web" then saveInFront w else w).store with
            | none => exact .keeps hremove
            | some stored => exact .keeps hremove
        | some rest =>
            obtain ⟨stored, hfind⟩ := findByServiceId_of_remove hremove
            simp only [hfind]
            exact .removes hremove hfind (.inl rfl)

/-- The pass removes the override of `docs`, and not the new one of `web`. -/
theorem prunes_only_expired_docs :
    (Prog.run meetsSave execute ⟨expiredStore, []⟩).2.log =
        [.saved "web" (keepUntil 200 (by decide)) 120, .pruned "docs" (keepUntil 50 (by decide)),
          .pruningInstant 100] ∧
      PrunesOnlyExpired (Prog.run meetsSave execute ⟨expiredStore, []⟩).2.log :=
  ⟨by decide +kernel,
    prunes_only_expired expiredStore _ (Prog.exec_run interleaved_meetsSave _ _).reach⟩

end AtlasManager.Service.OverridePruning
