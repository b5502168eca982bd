import AtlasManager.Service.ReconciliationStores

/-!
# AtlasManager.Service.ReconciliationCycle

A cycle of the reconciliation scheduler: a tick over the interval between the
stored cursor and the clock, after which the cursor moves on.

* `generate`, `executeOccurrence` -- what the tick does for a service and an occurrence;
* `runCycle` -- the cycle over its collaborators; `cycle` -- over the system;
* `handedOverOnce_of_cycles` -- no occurrence is handed over twice.
-/

namespace AtlasManager.Service

open AtlasManager.Lib AtlasManager.Scheduling

/-! ## Occurrences -/

section Occurrences

variable (zone : Zone)

def mapTransitionToOperation : TransitionKind → ReconciliationOperation
  | .becameAvailable => .start
  | .becameUnavailable => .stop

def createReconciliationOccurrence (serviceId : String) (operation : ReconciliationOperation)
    (scheduledFor : Date) : Except ReconciliationFailure ReconciliationOccurrence :=
  if serviceId.length < 1 ∨ serviceId.length > 64 ∨ !isServiceId serviceId then
    .error .invalidOccurrence
  else
    match scheduledFor with
    | some scheduledFor => .ok { serviceId, operation, scheduledFor }
    | none => .error .invalidOccurrence

/-- The transitions between two dates; an interval with an invalid one is refused. -/
def transitionsBetween (policy : ServiceAvailabilityPolicy) (fromExclusive toInclusive : Date) :
    Except TransitionCalculationError (List ServiceAvailabilityPolicyTransition) :=
  match fromExclusive, toInclusive with
  | some fromExclusive, some toInclusive =>
    calculateServiceAvailabilityPolicyTransitions zone policy fromExclusive.ms toInclusive.ms
  | _, _ => .error .invalidTransitionInterval

/-- The occurrences of a service in an interval. -/
def occurrencesBetween (service : RegisteredService) (fromExclusive toInclusive : Date) :
    Except ReconciliationFailure (List ReconciliationOccurrence) := do
  let transitions ← (transitionsBetween zone service.availabilityPolicy fromExclusive
    toInclusive).mapError .transition
  transitions.mapM fun transition =>
    createReconciliationOccurrence service.id (mapTransitionToOperation transition.kind)
      (Timestamp.ofMs? transition.scheduledFor)

/-- `GenerateRegisteredServiceAvailabilityReconciliationOccurrences.execute`. -/
def generate (serviceId : String) (fromExclusive toInclusive : Date) :
    ServiceProg (List ReconciliationOccurrence) := do
  match ← ask (.findById serviceId) with
  | none => .throw .registeredServiceNotFound
  | some service => .ofExcept (occurrencesBetween zone service fromExclusive toInclusive)

def decideServiceAvailabilityReconciliation (expectation : ServiceAvailabilityExpectation)
    (runtimeState : ServiceRuntimeState) : Option ReconciliationOperation :=
  match expectation, runtimeState with
  | .available, .stopped => some .start
  | .unavailable, .running => some .stop
  | _, _ => none

/-- `PlanRegisteredServiceAvailabilityReconciliation.execute`. -/
def plan (serviceId : String) : ServiceProg (Option ReconciliationOperation) := do
  match ← ask (.findById serviceId) with
  | none => .throw .registeredServiceNotFound
  | some service =>
    let override ← ask (.findOverride service.id)
    let runtimeState ← ask (.readStatus service)
    match ← ask .now with
    | none => .throw .invalidEvaluationInstant
    | some instant =>
      let expectation := evaluateServiceAvailabilityWithOverride zone service.availabilityPolicy
        override instant.ms
      return decideServiceAvailabilityReconciliation expectation runtimeState

/-- From the claim on. -/
def claimAndOrchestrate (occurrence : ReconciliationOccurrence) :
    ServiceProg OccurrenceExecutionResult := do
  match ← inClaimFile (claim occurrence) with
  | .duplicate => return .duplicate
  | .claimed =>
    let successful ← ask (.orchestrate occurrence)
    if !successful then .throw .orchestrationFailed
    else return .executed

/-- `ExecuteRegisteredServiceAvailabilityReconciliationOccurrence.execute`. -/
def executeOccurrence (occurrence : ReconciliationOccurrence) :
    ServiceProg OccurrenceExecutionResult := do
  let decision ← plan zone occurrence.serviceId
  if decision = some occurrence.operation then claimAndOrchestrate occurrence
  else return .none

end Occurrences

/-! ## Pruning -/

inductive OverridePruningResult where
  | noOverride (serviceId : String)
  | active (serviceId : String)
  | removed (serviceId : String)
  | notRemoved (serviceId : String)
  | failed (serviceId : String) (error : ReconciliationFailure)
  deriving DecidableEq

def OverridePruningResult.isFailed : OverridePruningResult → Bool
  | failed _ _ => true
  | _ => false

/-- The block of the `try` around the pruning of a service. -/
def pruneExpiredOverride (pruningInstant : Timestamp) (service : RegisteredService) :
    ServiceProg OverridePruningResult := do
  match ← ask (.findOverride service.id) with
  | none => return .noOverride service.id
  | some override =>
    if !isServiceAvailabilityOverrideExpiredAt override pruningInstant.ms then
      return .active service.id
    else
      match ← ask (.removeOverride service.id override) with
      | .removed => return .removed service.id
      | .notRemoved => return .notRemoved service.id

def pruneExpiredOverridesOf (pruningInstant : Timestamp) :
    List RegisteredService → ServiceProg (List OverridePruningResult)
  | [] => return []
  | service :: services => do
    let pruned ← (pruneExpiredOverride pruningInstant service).attempt
    let results ← pruneExpiredOverridesOf pruningInstant services
    match pruned with
    | .ok result => return result :: results
    | .error error => return .failed service.id error :: results

/-- `PruneExpiredRegisteredServiceAvailabilityOverrides.execute`. -/
def pruneExpiredOverrides : ServiceProg (List OverridePruningResult) := do
  let services ← ask .list
  match ← ask .now with
  | none => .throw .invalidEvaluationInstant
  | some pruningInstant => pruneExpiredOverridesOf pruningInstant services

/-- `PruneCompletedServiceAvailabilityReconciliationOccurrenceClaims.execute`. -/
def pruneCompletedOccurrenceClaims : ServiceProg ReconciliationClaimPruningResult := do
  match ← inCursorFile readCursor with
  | none => return .noCursor
  | some cursor => inClaimFile (pruneCompletedThrough cursor)

/-! ## The cycle -/

/-- The collaborators of a cycle. -/
inductive CycleCall where
  | tick (call : TickCall)
  | readCursor
  | pruneExpiredOverrides
  | pruneCompletedOccurrenceClaims
  | advanceCursor (expected : Option ReconciliationCursor) (next : ReconciliationCursor)

abbrev CycleCall.Answer : CycleCall → Type
  | tick call => call.Answer
  | readCursor => Option ReconciliationCursor
  | pruneExpiredOverrides => List OverridePruningResult
  | pruneCompletedOccurrenceClaims => ReconciliationClaimPruningResult
  | advanceCursor _ _ => ReconciliationCursorResult

abbrev CycleReport := List (TickServiceResult ReconciliationFailure)

inductive ReconciliationCycleResult where
  | idle (cursor : ReconciliationCursor)
  | incomplete (cursor : Option ReconciliationCursor) (report : CycleReport)
      (pruningReport : List OverridePruningResult)
      (occurrenceClaimPruningResult : Option ReconciliationClaimPruningResult)
  | advanced (cursor : ReconciliationCursor) (report : CycleReport)
      (pruningReport : List OverridePruningResult)
      (occurrenceClaimPruningResult : ReconciliationClaimPruningResult)
  | conflict (cursor : Option ReconciliationCursor) (report : CycleReport)
      (pruningReport : List OverridePruningResult)
      (occurrenceClaimPruningResult : ReconciliationClaimPruningResult)

/-- The clock, rounded down to the minute. -/
def getCanonicalTargetTimestamp : Date → Except ReconciliationFailure Int
  | none => .error .invalidClockTime
  | some clockTime => .ok (clockTime.ms / 60000 * 60000)

/-- Where the interval of a cycle starts: at the cursor, or a minute before the target. -/
def intervalStart (current : Option ReconciliationCursor) (target : Int) : Int :=
  match current with
  | none => target - 60000
  | some cursor => cursor.completedThrough.ms

/-- Where it ends: at the target, but after eight days at the latest. -/
def intervalEnd (current : Option ReconciliationCursor) (target : Int) : Int :=
  min target (intervalStart current target + maximumInterval)

def TickOccurrenceResult.isFailed {ε : Type} : TickOccurrenceResult ε → Bool
  | failed _ _ => true
  | completed _ _ => false

def TickServiceResult.isIncomplete {ε : Type} : TickServiceResult ε → Bool
  | failed _ _ => true
  | completed _ results => results.any (·.isFailed)

/-- The tick of a cycle, whose collaborators are some of the cycle's. -/
def cycleTick (fromExclusive toInclusive : Date) :
    ReconciliationProg CycleCall CycleCall.Answer CycleReport :=
  runTick (Prog.perform (CycleCall.tick .listRegisteredServices))
    (Prog.perform (CycleCall.tick .getGraph))
    (fun id a b => Prog.perform (CycleCall.tick (.generate id a b)))
    (fun occurrence => Prog.perform (CycleCall.tick (.execute occurrence)))
    fromExclusive toInclusive

/-- The cycle after its interval has been found. -/
def processInterval (current : Option ReconciliationCursor) (fromTimestamp toTimestamp : Int) :
    ReconciliationProg CycleCall CycleCall.Answer ReconciliationCycleResult := do
  let toInclusive := Timestamp.ofMs? toTimestamp
  let report ← cycleTick (Timestamp.ofMs? fromTimestamp) toInclusive
  let pruningReport ← Prog.perform CycleCall.pruneExpiredOverrides
  if pruningReport.any (·.isFailed) then return .incomplete current report pruningReport none
  else
    let claimPruning ← Prog.perform CycleCall.pruneCompletedOccurrenceClaims
    if report.any (·.isIncomplete) then
      return .incomplete current report pruningReport (some claimPruning)
    else
      match toInclusive with
      | none => .throw .invalidCompletedThrough
      | some completedThrough =>
        let candidate ← .ofExcept (createReconciliationCursor completedThrough)
        match ← Prog.perform (CycleCall.advanceCursor current candidate) with
        | .advanced cursor => return .advanced cursor report pruningReport claimPruning
        | .conflict cursor => return .conflict cursor report pruningReport claimPruning

/-- `RunServiceAvailabilityReconciliationSchedulerCycle.execute`, with what the clock shows. -/
def runCycle (clockTime : Date) :
    ReconciliationProg CycleCall CycleCall.Answer ReconciliationCycleResult := do
  let current ← Prog.perform CycleCall.readCursor
  let target ← .ofExcept (getCanonicalTargetTimestamp clockTime)
  match current with
  | some cursor =>
    if target < cursor.completedThrough.ms then .throw .clockBeforeCursor
    else if target = cursor.completedThrough.ms then return .idle cursor
    else processInterval current (intervalStart current target) (intervalEnd current target)
  | none => processInterval current (intervalStart current target) (intervalEnd current target)

/-- The collaborators, as programs over the files and the ports. -/
def cycleImplementation (zone : Zone) : (call : CycleCall) → ServiceProg call.Answer
  | .tick .listRegisteredServices => ask .list
  | .tick .getGraph => ask .getGraph
  | .tick (.generate serviceId fromExclusive toInclusive) =>
    generate zone serviceId fromExclusive toInclusive
  | .tick (.execute occurrence) => executeOccurrence zone occurrence
  | .readCursor => inCursorFile readCursor
  | .pruneExpiredOverrides => pruneExpiredOverrides
  | .pruneCompletedOccurrenceClaims => pruneCompletedOccurrenceClaims
  | .advanceCursor expected next => inCursorFile (advance expected next)

def cycle (zone : Zone) (clockTime : Date) : ServiceProg ReconciliationCycleResult :=
  (runCycle clockTime).interpret (cycleImplementation zone)

/-! ## What has been handed over -/

/-- The occurrences handed to the orchestrator, the latest first. -/
def handedOver (log : ServiceLog) : List ReconciliationOccurrence :=
  log.filterMap fun event =>
    match event.call with
    | .orchestrate occurrence => some occurrence
    | _ => none

/-- The text by which occurrences are compared with the cursor. -/
def timeText (occurrence : ReconciliationOccurrence) : String := occurrence.scheduledFor.text

/-- The invariant: every occurrence is handed over once. -/
def HandedOverOnce (world : ServiceWorld) : Prop :=
  Once timeText (handedOver world.log) (listIn world.claims.file)
    ((documentIn world.cursor.file).map (·.completedThrough.text))

/-- The invariant, while the cursor is in a file as it was. -/
structure Settled (file : Option (Content ReconciliationCursor)) (world : ServiceWorld) : Prop where
  once : HandedOverOnce world
  file_eq : world.cursor.file = file

/-- A call of a port other than the orchestrator. -/
def ServiceCall.IsQuiet : ServiceCall → Prop
  | .port (.orchestrate _) => False
  | .port _ => True
  | _ => False

section Kept

variable {file : Option (Content ReconciliationCursor)} {world : ServiceWorld} {zone : Zone}
  {occurrence : ReconciliationOccurrence}

theorem handedOver_cons {port : ServicePort} {answer : Except ReconciliationFailure port.Answer}
    {log : ServiceLog} (h : ServiceCall.IsQuiet (.port port)) :
    handedOver (⟨port, answer⟩ :: log) = handedOver log := by
  cases port <;> first | rfl | exact absurd h id

/-- What only asks ports leaves everything settled. -/
theorem Settled.spec {α : Type} {program : ServiceProg α} (h : Settled file world)
    (hprogram : Prog.Only ServiceCall.IsQuiet program) :
    Prog.Spec serviceStep (Settled file) program (fun _ => Settled file) world := by
  refine Prog.spec_of_only hprogram (fun world call answer world' hcall h hstep => ?_) h
  cases call with
  | port port =>
      obtain ⟨-, rfl⟩ := hstep
      refine ⟨?_, h.file_eq⟩
      rw [HandedOverOnce, handedOver_cons hcall]
      exact h.once
  | claimFile call => exact absurd hcall id
  | cursorFile call => exact absurd hcall id

theorem only_ask {port : ServicePort} (h : ServiceCall.IsQuiet (.port port)) :
    Prog.Only ServiceCall.IsQuiet (ask port) :=
  Prog.only_perform.mpr h

theorem only_plan {serviceId : String} : Prog.Only ServiceCall.IsQuiet (plan zone serviceId) := by
  refine Prog.Only.bind (only_ask trivial) fun service => ?_
  cases service with
  | none => exact Prog.only_throw
  | some service =>
      refine Prog.Only.bind (only_ask trivial) fun override => ?_
      refine Prog.Only.bind (only_ask trivial) fun runtimeState => ?_
      refine Prog.Only.bind (only_ask trivial) fun instant => ?_
      cases instant with
      | none => exact Prog.only_throw
      | some instant => exact Prog.only_pure

theorem only_pruneExpiredOverride {pruningInstant : Timestamp} {service : RegisteredService} :
    Prog.Only ServiceCall.IsQuiet (pruneExpiredOverride pruningInstant service) := by
  refine Prog.Only.bind (only_ask trivial) fun override => ?_
  cases override with
  | none => exact Prog.only_pure
  | some override =>
      dsimp only
      split
      · exact Prog.only_pure
      · refine Prog.Only.bind (only_ask trivial) fun removal => ?_
        cases removal <;> exact Prog.only_pure

theorem only_pruneExpiredOverrides : Prog.Only ServiceCall.IsQuiet pruneExpiredOverrides := by
  refine Prog.Only.bind (only_ask trivial) fun services => ?_
  refine Prog.Only.bind (only_ask trivial) fun instant => ?_
  cases instant with
  | none => exact Prog.only_throw
  | some pruningInstant =>
      dsimp only
      induction services with
      | nil => exact Prog.only_pure
      | cons service services ih =>
          refine Prog.Only.bind (Prog.only_attempt.mpr only_pruneExpiredOverride) fun pruned => ?_
          refine Prog.Only.bind ih fun results => ?_
          cases pruned <;> exact Prog.only_pure

/-! ### Generation -/

/-- Occurrences lie in the interval they are generated for. -/
theorem occurrencesBetween_bounds {service : RegisteredService} {fromExclusive toInclusive : Date}
    {occurrences : List ReconciliationOccurrence}
    (h : occurrencesBetween zone service fromExclusive toInclusive = .ok occurrences)
    (hmem : occurrence ∈ occurrences) :
    ∃ start ∈ fromExclusive, ∃ finish ∈ toInclusive,
      start.ms < occurrence.scheduledFor.ms ∧ occurrence.scheduledFor.ms ≤ finish.ms := by
  rw [occurrencesBetween] at h
  cases fromExclusive with
  | none => cases h
  | some start =>
      cases toInclusive with
      | none => cases h
      | some finish =>
          refine ⟨start, rfl, finish, rfl, ?_⟩
          rw [transitionsBetween] at h
          cases htransitions : calculateServiceAvailabilityPolicyTransitions zone
              service.availabilityPolicy start.ms finish.ms with
          | error e =>
              rw [htransitions] at h
              cases h
          | ok transitions =>
              rw [htransitions] at h
              obtain ⟨transition, htransition, hcreate⟩ :=
                exists_of_mem_forall₂ (forall₂_of_mapM h) hmem
              have hbounds := transitions_mem htransitions transition htransition
              have hms : occurrence.scheduledFor.ms = transition.scheduledFor := by
                unfold createReconciliationOccurrence at hcreate
                split at hcreate
                · cases hcreate
                · split at hcreate
                  · next scheduledFor hscheduled =>
                      obtain rfl := Except.ok.inj hcreate
                      exact Timestamp.ofMs?_eq_some.mp hscheduled
                  · cases hcreate
              rw [hms]
              exact hbounds

theorem generate_spec {serviceId : String} {fromExclusive toInclusive : Date}
    (h : Settled file world) :
    Prog.Spec serviceStep (Settled file) (generate zone serviceId fromExclusive toInclusive)
      (fun answer world => Settled file world ∧ ∀ occurrences, answer = .ok occurrences →
        ∀ occurrence ∈ occurrences, ∃ start ∈ fromExclusive, ∃ finish ∈ toInclusive,
          start.ms < occurrence.scheduledFor.ms ∧ occurrence.scheduledFor.ms ≤ finish.ms) world := by
  have hquiet : ServiceCall.IsQuiet (.port (.findById serviceId)) := trivial
  rw [generate, Prog.spec_bind]
  refine (h.spec (only_ask hquiet)).mono (fun _ h => h) ?_
  rintro (e | service) world h
  · exact ⟨h, fun _ hok => by cases hok⟩
  cases service with
  | none => exact ⟨h, fun _ hok => by cases hok⟩
  | some service =>
      dsimp only
      rw [Prog.spec_ofExcept]
      exact ⟨h, fun occurrences hok occurrence hmem => occurrencesBetween_bounds hok hmem⟩

/-! ### Execution -/

/-- An occurrence ahead of the cursor is handed over at most once. -/
theorem claimAndOrchestrate_spec
    (hahead : ∀ text ∈ (documentIn file).map (·.completedThrough.text), text < timeText occurrence)
    (h : Settled file world) :
    Prog.Spec serviceStep (Settled file) (claimAndOrchestrate occurrence) (fun _ => Settled file)
      world := by
  have hkeeps : ∀ state : FileState (List ReconciliationOccurrence),
      listIn world.claims.file ⊆ listIn state.file → Settled file { world with claims := state } :=
    fun state hsubset => ⟨h.once.claim hsubset, h.file_eq⟩
  rw [claimAndOrchestrate, Prog.spec_bind]
  refine inClaimFile_spec (claimIn_spec (fun _ => List.mergeSort_perm _ _) hkeeps ?_ h
    fun e => hkeeps)
  intro state hsubset hnew hclaimed
  have hstate := hkeeps state hsubset
  have hfresh : occurrence ∉ handedOver world.log := by
    refine h.once.not_mem ?_ hnew
    rw [h.file_eq]
    exact hahead
  dsimp only
  rw [Prog.spec_bind]
  refine spec_port fun answer _ => ?_
  have hhanded : Settled file { world with
      claims := state, log := ⟨.orchestrate occurrence, answer⟩ :: world.log } :=
    ⟨hstate.once.handOver hfresh hclaimed, h.file_eq⟩
  refine ⟨hhanded, ?_⟩
  cases answer with
  | error e => exact hhanded
  | ok successful => cases successful <;> exact hhanded

theorem executeOccurrence_spec
    (hahead : ∀ text ∈ (documentIn file).map (·.completedThrough.text), text < timeText occurrence)
    (h : Settled file world) :
    Prog.Spec serviceStep (Settled file) (executeOccurrence zone occurrence)
      (fun _ => Settled file) world := by
  rw [executeOccurrence, Prog.spec_bind]
  refine (h.spec only_plan).mono (fun _ h => h) ?_
  rintro (e | decision) world h
  · exact h
  dsimp only
  split
  · exact claimAndOrchestrate_spec hahead h
  · exact h

/-! ### Pruning and the cursor -/

theorem pruneCompletedOccurrenceClaims_spec (h : Settled file world) :
    Prog.Spec serviceStep (Settled file) pruneCompletedOccurrenceClaims (fun _ => Settled file)
      world := by
  rw [pruneCompletedOccurrenceClaims, Prog.spec_bind]
  refine inCursorFile_spec (readDocument_spec h ?_ fun e => h)
  intro cursor hcursor
  cases cursor with
  | none => exact h
  | some cursor =>
      refine inClaimFile_spec (pruneIn_spec fun state hkept => ⟨?_, h.file_eq⟩)
      refine h.once.prune fun x hx hahead => hkept x hx (decide_eq_true (hahead _ ?_))
      rw [documentIn_of_readsAs hcursor]
      rfl

/-- The cursor only moves on, so what it has passed stays behind. -/
theorem advance_spec {expected : Option ReconciliationCursor} {next : ReconciliationCursor}
    (h : HandedOverOnce world) :
    Prog.Spec serviceStep HandedOverOnce (inCursorFile (advance expected next))
      (fun _ => HandedOverOnce) world := by
  have hsame : ∀ state : FileState ReconciliationCursor, state.file = world.cursor.file →
      HandedOverOnce { world with cursor := state } := by
    intro state hfile
    rw [HandedOverOnce, hfile]
    exact h
  refine inCursorFile_spec (advanceIn_spec hsame ?_ (fun _ => h) fun _ => hsame)
  intro hexpected hforward state hfile
  have hadvanced : HandedOverOnce { world with cursor := state } := by
    rw [HandedOverOnce, hfile]
    refine Once.advance h ?_
    rw [← hexpected]
    intro text htext
    obtain ⟨cursor, hcursor, rfl⟩ := Option.mem_map.mp htext
    exact (of_decide_eq_true (hforward cursor hcursor)).le
  exact ⟨hadvanced, hadvanced⟩

end Kept

/-! ## A cycle -/

/-- When a cursor is behind the clock, it also has the smaller text than the end
of the interval. -/
def MovesForward (world : ServiceWorld) (clockTime : Date) : Prop :=
  ∀ cursor ∈ documentIn world.cursor.file, ∀ now ∈ clockTime,
    cursor.completedThrough.ms < now.ms / 60000 * 60000 →
    ∀ toInclusive ∈ Timestamp.ofMs? (intervalEnd (some cursor) (now.ms / 60000 * 60000)),
      cursor.completedThrough.text < toInclusive.text

section Cycle

variable {zone : Zone} {world : ServiceWorld} {file : Option (Content ReconciliationCursor)}

theorem intervalEnd_le (current : Option ReconciliationCursor) (target : Int) :
    intervalEnd current target ≤ intervalStart current target + maximumInterval :=
  min_le_right _ _

/-- The tick of a cycle, whose occurrences are all ahead of the cursor. -/
theorem cycleTick_spec {fromExclusive toInclusive : Date}
    (hahead : ∀ start ∈ fromExclusive, ∀ finish ∈ toInclusive, ∀ time : Timestamp,
      start.ms < time.ms → time.ms ≤ finish.ms →
      ∀ text ∈ (documentIn file).map (·.completedThrough.text), text < time.text)
    (h : Settled file world) :
    Prog.Spec serviceStep (Settled file)
      ((cycleTick fromExclusive toInclusive).interpret (cycleImplementation zone))
      (fun _ => Settled file) world := by
  rw [cycleTick, interpret_runTick]
  simp only [Prog.interpret_perform]
  refine runTick_keeps (fun w h => ?_) (fun w h => ?_) (fun id w h => generate_spec h)
    (fun x w hx h => executeOccurrence_spec ?_ h) h
  · have hquiet : ServiceCall.IsQuiet (.port .list) := trivial
    exact h.spec (only_ask hquiet)
  · have hquiet : ServiceCall.IsQuiet (.port .getGraph) := trivial
    exact h.spec (only_ask hquiet)
  · obtain ⟨start, hstart, finish, hfinish, hlt, hle⟩ := hx
    exact hahead start hstart finish hfinish x.scheduledFor hlt hle

theorem processInterval_spec {current : Option ReconciliationCursor} {fromTimestamp toTimestamp : Int}
    (hahead : ∀ start ∈ Timestamp.ofMs? fromTimestamp, ∀ finish ∈ Timestamp.ofMs? toTimestamp,
      ∀ time : Timestamp, start.ms < time.ms → time.ms ≤ finish.ms →
      ∀ text ∈ (documentIn file).map (·.completedThrough.text), text < time.text)
    (h : Settled file world) :
    Prog.Spec serviceStep HandedOverOnce
      ((processInterval current fromTimestamp toTimestamp).interpret (cycleImplementation zone))
      (fun _ => HandedOverOnce) world := by
  rw [processInterval, Prog.interpret_bind, Prog.spec_bind]
  refine (cycleTick_spec hahead h).mono (fun _ h => h.once) ?_
  rintro (e | report) world h
  · exact h.once
  dsimp only
  rw [Prog.interpret_bind, Prog.spec_bind, Prog.interpret_perform]
  refine (h.spec only_pruneExpiredOverrides).mono (fun _ h => h.once) ?_
  rintro (e | pruningReport) world h
  · exact h.once
  dsimp only
  split
  · exact h.once
  rw [Prog.interpret_bind, Prog.spec_bind, Prog.interpret_perform]
  refine (pruneCompletedOccurrenceClaims_spec h).mono (fun _ h => h.once) ?_
  rintro (e | claimPruning) world h
  · exact h.once
  dsimp only
  split
  · exact h.once
  split
  · exact h.once
  rw [Prog.interpret_bind, Prog.spec_bind, Prog.interpret_ofExcept, Prog.spec_ofExcept]
  cases createReconciliationCursor _ with
  | error e => exact h.once
  | ok candidate =>
      dsimp only
      rw [Prog.interpret_bind, Prog.spec_bind, Prog.interpret_perform]
      refine (advance_spec h.once).mono (fun _ h => h) ?_
      rintro (e | outcome) world h
      · exact h
      · cases outcome <;> exact h

/-- **A cycle.**  Wherever it stops, no occurrence has been handed over twice. -/
theorem cycle_spec {clockTime : Date} (hforward : MovesForward world clockTime)
    (h : HandedOverOnce world) :
    Prog.Spec serviceStep HandedOverOnce (cycle zone clockTime) (fun _ => HandedOverOnce) world := by
  rw [cycle, runCycle, Prog.interpret_bind, Prog.spec_bind, Prog.interpret_perform]
  refine inCursorFile_spec (readDocument_spec h ?_ fun e => h)
  intro current hcurrent
  have hdocument := documentIn_of_readsAs hcurrent
  dsimp only
  rw [Prog.interpret_bind, Prog.spec_bind, Prog.interpret_ofExcept, Prog.spec_ofExcept]
  cases clockTime with
  | none => exact h
  | some now =>
      rw [getCanonicalTargetTimestamp]
      dsimp only
      have hsettled : Settled world.cursor.file world := ⟨h, rfl⟩
      cases current with
      | none =>
          refine processInterval_spec ?_ hsettled
          rw [hdocument]
          rintro start - finish - time - - text ⟨⟩
      | some cursor =>
          dsimp only
          split
          · exact h
          next hbehind =>
          split
          · exact h
          next hne =>
          refine processInterval_spec ?_ hsettled
          rw [hdocument]
          rintro start hstart finish hfinish time hlt hle _ ⟨rfl⟩
          have hstart : start.ms = cursor.completedThrough.ms := Timestamp.ofMs?_eq_some.mp hstart
          have hlength := intervalEnd_le (some cursor) (now.ms / 60000 * 60000)
          rw [← Timestamp.ofMs?_eq_some.mp hfinish, intervalStart] at hlength
          have htext := hforward cursor hdocument now rfl (by omega) finish hfinish
          refine Timestamp.text_lt_of_between (by omega) hle ?_ htext
          have hday : msPerDay = 86400000 := rfl
          unfold maximumInterval at hlength
          omega

/-- Cycles one after another, each of which may end or stop anywhere; `admits` says
which readings of the clock are considered. -/
inductive Cycles (zone : Zone) (admits : ServiceWorld → Date → Prop) (start : ServiceWorld) :
    ServiceWorld → Prop where
  | start : Cycles zone admits start start
  | cycle {world world' : ServiceWorld} (clockTime : Date) :
      Cycles zone admits start world → admits world clockTime →
      Prog.Reach serviceStep (cycle zone clockTime) world world' → Cycles zone admits start world'

theorem handedOverOnce_of_cycles {start : ServiceWorld} (hempty : start.log = [])
    (h : Cycles zone MovesForward start world) : HandedOverOnce world := by
  induction h with
  | start =>
      rw [HandedOverOnce, hempty]
      exact Once.empty
  | cycle clockTime _ hforward hreach ih => exact (cycle_spec hforward ih).reach ih hreach

/-- **At most once.**  Over cycles that move forward no occurrence is handed over twice. -/
theorem cycles_handOver_once {start : ServiceWorld} (hempty : start.log = [])
    (h : Cycles zone MovesForward start world) : (handedOver world.log).Nodup :=
  (handedOverOnce_of_cycles hempty h).nodup

end Cycle

/-! ### When cycles move forward -/

/-- In years of four digits texts compare like instants. -/
theorem movesForward_of_fourDigit {world : ServiceWorld} {clockTime : Date}
    (hcursor : ∀ cursor ∈ documentIn world.cursor.file, 0 ≤ yearOf cursor.completedThrough.ms)
    (hnow : ∀ now ∈ clockTime, yearOf now.ms ≤ 9999) : MovesForward world clockTime := by
  intro cursor hmem now hclock hbehind toInclusive hend
  have hms := Timestamp.ofMs?_eq_some.mp hend
  have htarget : intervalEnd (some cursor) (now.ms / 60000 * 60000) ≤ now.ms / 60000 * 60000 :=
    min_le_left _ _
  have hstart : cursor.completedThrough.ms < toInclusive.ms := by
    rw [hms, intervalEnd, lt_min_iff]
    refine ⟨hbehind, ?_⟩
    simp only [intervalStart, maximumInterval]
    omega
  have hlower := yearOf_mono hstart.le
  have hupper : yearOf toInclusive.ms ≤ yearOf now.ms := yearOf_mono (by omega)
  have hcursor := hcursor cursor hmem
  have hnow := hnow now hclock
  exact (Timestamp.text_lt_iff_of_fourDigit ⟨hcursor, by omega⟩ ⟨by omega, by omega⟩).mpr hstart

/-- America/Sao_Paulo, three hours behind UTC. -/
def saoPaulo : Zone := fixedOffset (-10800000)

/-- Fridays from nine to eleven in the evening. -/
def fridayNight : WeeklyAvailabilitySchedule where
  windows := [⟨.friday, 1260, 1380, by decide⟩]
  count := by decide
  ordered := by decide

def fridayService : RegisteredService where
  id := "atlas-web"
  supportedOperations := [.readStatus, .start, .stop]
  dependencies := []
  availabilityPolicy := .scheduled fridayNight

def singleGraph : RegisteredServiceDependencyGraph where
  nodes := [⟨"atlas-web", [], []⟩]
  nodup := by decide
  known := by simp
  dependents id d := by
    constructor
    · intro h
      obtain ⟨node, hnode, -, hmem⟩ := mem_dependentsIn h
      rw [List.mem_singleton.mp hnode] at hmem
      cases hmem
    · intro h
      obtain ⟨node, hnode, -, hmem⟩ := mem_dependenciesIn h
      rw [List.mem_singleton.mp hnode] at hmem
      cases hmem
  acyclic id h := by
    obtain ⟨next, hedge, -⟩ := Relation.TransGen.head'_iff.mp h
    obtain ⟨node, hnode, -, hmem⟩ := mem_dependenciesIn hedge
    rw [List.mem_singleton.mp hnode] at hmem
    cases hmem

/-- The service is stopped whenever it is looked at, and every start succeeds. -/
def answerStopped (now : Date) :
    (port : ServicePort) → Except ReconciliationFailure port.Answer
  | .list => .ok [fridayService]
  | .findById _ => .ok (some fridayService)
  | .getGraph => .ok singleGraph
  | .findOverride _ => .ok none
  | .removeOverride _ _ => .ok .notRemoved
  | .readStatus _ => .ok .stopped
  | .now => .ok now
  | .orchestrate _ => .ok true

/-- A complete cycle whose files work, at the time that the clock shows. -/
def cycleStopped (now : Timestamp) (world : ServiceWorld) :
    Except ReconciliationFailure ReconciliationCycleResult × ServiceWorld :=
  Prog.run (LedgerWorld.answering (answerStopped now) (.port "")) (cycle saoPaulo now) world

theorem reach_cycleStopped (now : Timestamp) (world : ServiceWorld) :
    Prog.Reach serviceStep (cycle saoPaulo now) world (cycleStopped now world).2 :=
  (Prog.exec_run (ledgerStep_answering _ fun _ => trivial) _ world).reach

/-- The cursor stands a minute before the window opens, and nothing is claimed. -/
def beforeFridayNight : ServiceWorld where
  claims := ⟨none, none⟩
  cursor := ⟨some (.document ⟨⟨1768003140000, by decide⟩, by decide⟩), none⟩
  log := []

/-- The world after cycles at 21:00:30 and at 21:01:30. -/
def onFridayNight : ServiceWorld :=
  (cycleStopped ⟨1768003290000, by decide⟩
    (cycleStopped ⟨1768003230000, by decide⟩ beforeFridayNight).2).2

theorem cycles_handOver_once_onFridayNight :
    (handedOver onFridayNight.log).map (·.scheduledFor.ms) = [1768003200000] ∧
      (documentIn onFridayNight.cursor.file).map (·.completedThrough.ms) = some 1768003260000 ∧
      (handedOver onFridayNight.log).Nodup := by
  have hfirst : MovesForward beforeFridayNight (some ⟨1768003230000, by decide⟩) := by
    refine movesForward_of_fourDigit ?_ ?_
    · rintro _ ⟨rfl⟩
      decide +kernel
    · rintro _ ⟨rfl⟩
      decide +kernel
  have hcursor : (documentIn (cycleStopped ⟨1768003230000, by decide⟩
      beforeFridayNight).2.cursor.file).map (·.completedThrough.ms) = some 1768003200000 := by
    decide +kernel
  have hsecond : MovesForward (cycleStopped ⟨1768003230000, by decide⟩ beforeFridayNight).2
      (some ⟨1768003290000, by decide⟩) := by
    refine movesForward_of_fourDigit ?_ ?_
    · intro cursor hmem
      rw [hmem, Option.map_some, Option.some.injEq] at hcursor
      rw [hcursor]
      decide +kernel
    · rintro _ ⟨rfl⟩
      decide +kernel
  have hruns : Cycles saoPaulo MovesForward beforeFridayNight onFridayNight :=
    .cycle _ (.cycle _ .start hfirst (reach_cycleStopped _ _)) hsecond (reach_cycleStopped _ _)
  exact ⟨by decide +kernel, by decide +kernel, cycles_handOver_once rfl hruns⟩

/-- The cursor stands a minute before the year 10000 begins in UTC, where the window opens. -/
def beforeYear10000 : ServiceWorld where
  claims := ⟨none, none⟩
  cursor := ⟨some (.document ⟨⟨253402300740000, lastMinute_inRange⟩, by decide⟩), none⟩
  log := []

/-- The claim of the first cycle is pruned, as its text starts with a sign, and the
cursor does not move for the same reason; so the second cycle starts the service again. -/
theorem handOver_twice_in_year_10000 :
    ∃ world, Cycles saoPaulo (fun _ _ => True) beforeYear10000 world ∧
      beforeYear10000.log = [] ∧ ¬ (handedOver world.log).Nodup := by
  refine ⟨(cycleStopped ⟨253402300830000, by decide⟩
    (cycleStopped ⟨253402300830000, by decide⟩ beforeYear10000).2).2, ?_, rfl, by decide +kernel⟩
  exact .cycle _ (.cycle _ .start trivial (reach_cycleStopped _ _)) trivial
    (reach_cycleStopped _ _)

end AtlasManager.Service
