import AtlasManager.Lib.Calendar
import AtlasManager.Lib.Prog
import AtlasManager.Service.DependencyGraph
import AtlasManager.Service.RegisteredService

/-!
# AtlasManager.Service.StopOrchestration

Stopping a set of services before the machine is powered off.  The services are
stopped in rounds: a service is ready when none of its *direct* dependents is
still waiting.

* `dependentFirstRequestedOrder_spec` -- the rounds end, and list the requested
  services by the length of the longest chain of requested dependents above them;
* `execute_spec` -- what every run of the orchestration does along an order;
* `stopsDependentsFirst_iff` -- when a service is stopped only after every
  requested service that depends on it.
-/

namespace AtlasManager.Service

open AtlasManager.Lib Relation

/-! ## The result -/

inductive StopFailureCode where
  | serviceStatusFailed
  | serviceStopNotSupported
  | serviceStopFailed
  | servicePlanInvalid
  deriving DecidableEq, Repr

inductive StopOutcome where
  | stopped
  | alreadyStopped
  | failed (failureCode : StopFailureCode)
  deriving DecidableEq, Repr

def StopOutcome.isFailed : StopOutcome → Bool
  | failed _ => true
  | _ => false

structure RegisteredServiceStopStep where
  serviceId : String
  outcome : StopOutcome
  deriving DecidableEq, Repr

structure RegisteredServicesStopResult where
  requestedAt : String
  steps : List RegisteredServiceStopStep
  successful : Bool
  deriving DecidableEq, Repr

inductive StopError where
  /-- `service_plan_invalid`, thrown by the orchestration itself -/
  | servicePlanInvalid
  /-- `RegisteredServicesStopResultError` -/
  | invalidResult
  | invalidStep
  /-- whatever a port throws -/
  | port
  deriving DecidableEq, Repr

/-- `isCanonicalTimestamp` of the stop result: years of four digits only. -/
def isFourDigitTimestamp (text : String) : Bool :=
  match Timestamp.ofText? text with
  | some t => 0 ≤ yearOf t.ms ∧ yearOf t.ms ≤ 9999
  | none => false

/-- Check a result before it is returned. -/
def createRegisteredServicesStopResult (result : RegisteredServicesStopResult) :
    Except StopError RegisteredServicesStopResult :=
  let steps := result.steps
  let hasFailure := steps.any (·.outcome.isFailed)
  if !isFourDigitTimestamp result.requestedAt then .error .invalidResult
  else if steps.any fun step => !isServiceId step.serviceId then .error .invalidStep
  else if steps.length < 1 ∨ steps.length > 64 ∨ ¬ (steps.map (·.serviceId)).Nodup then
    .error .invalidResult
  else if result.successful = hasFailure then .error .invalidResult
  else if hasFailure ∧ (steps.getLast?.map (·.outcome.isFailed)) ≠ some true then
    .error .invalidResult
  else .ok result

def failedResult (requestedAt serviceId : String) :
    Except StopError RegisteredServicesStopResult :=
  createRegisteredServicesStopResult {
    requestedAt
    steps := [{ serviceId, outcome := .failed .servicePlanInvalid }]
    successful := false }

/-! ## The request -/

/-- The ids of a list whose members are all well-formed ids. -/
def serviceIdItems : List JsValue → Option (List String)
  | [] => some []
  | .str id :: items => if isServiceId id then (serviceIdItems items).map (id :: ·) else none
  | _ :: _ => none

/-- The requested ids: 1 to 64 distinct service ids, in a record without other fields. -/
def validateInput (input : JsValue) : Except StopError (List String) :=
  match input with
  | .obj fields =>
    match field fields "authority", field fields "serviceIds" with
    | .str "machine_shutdown", .arr items =>
      if items.length < 1 ∨ items.length > 64 then .error .servicePlanInvalid
      else
        match serviceIdItems items with
        | none => .error .servicePlanInvalid
        | some ids =>
          if ¬ ids.Nodup ∨ hasFieldOutside ["serviceIds", "authority"] fields then
            .error .servicePlanInvalid
          else .ok ids
    | _, _ => .error .servicePlanInvalid
  | _ => .error .servicePlanInvalid

theorem serviceIdItems_some {items : List JsValue} {ids : List String}
    (h : serviceIdItems items = some ids) :
    ids.length = items.length ∧ ∀ id ∈ ids, isServiceId id := by
  induction items generalizing ids with
  | nil => simp_all [serviceIdItems]
  | cons item items ih =>
      cases item with
      | str id =>
          simp only [serviceIdItems] at h
          split at h
          · rename_i hid
            obtain ⟨ids', hids', rfl⟩ := Option.map_eq_some_iff.mp h
            obtain ⟨hlen, hall⟩ := ih hids'
            exact ⟨by simp [hlen], by simpa [hid] using hall⟩
          · simp at h
      | _ => simp [serviceIdItems] at h

theorem validateInput_ok {input : JsValue} {ids : List String}
    (h : validateInput input = .ok ids) :
    ids ≠ [] ∧ ids.length ≤ 64 ∧ ids.Nodup ∧ ∀ id ∈ ids, isServiceId id := by
  unfold validateInput at h
  split at h
  · split at h
    · split at h
      · simp at h
      · rename_i items _ _ hlength
        cases hitems : serviceIdItems items with
        | none => simp [hitems] at h
        | some ids' =>
            obtain ⟨hlen, hids⟩ := serviceIdItems_some hitems
            simp only [hitems] at h
            split at h
            · simp at h
            · rename_i hvalid
              obtain rfl : ids' = ids := by simpa using h
              push Not at hvalid
              refine ⟨?_, by omega, hvalid.1, hids⟩
              rintro rfl
              simp at hlen
              omega
    · simp at h
  · simp at h

/-! ## The order -/

/-- One round after the other: the services none of whose direct dependents
remain, sorted, until no service remains. -/
def stopRounds (directDependentsOf : String → List String) :
    Nat → List String → List String → Except StopError (List String)
  | 0, remaining, result => if remaining = [] then .ok result else .error .servicePlanInvalid
  | fuel + 1, remaining, result =>
    if remaining = [] then .ok result
    else
      let ready := sortTexts (remaining.filter fun id =>
        (directDependentsOf id).all fun dependent => dependent ∉ remaining)
      if ready = [] then .error .servicePlanInvalid
      else
        stopRounds directDependentsOf fuel (remaining.filter (· ∉ ready)) (result ++ ready)

/-- Every round removes a service, so there are at most as many as services. -/
def dependentFirstRequestedOrder (requested : List String)
    (graph : RegisteredServiceDependencyGraph) : Except StopError (List String) :=
  stopRounds graph.directDependentsOf requested.length requested []

/-- The services that remain after `n` rounds. -/
def Remaining (next : String → List String) (requested : List String) (n : Nat)
    (remaining : List String) : Prop :=
  remaining.Nodup ∧ (∀ id, id ∈ remaining ↔ hasChain next requested n id) ∧
    remaining.length + n ≤ requested.length

/-- **Stop order, run lemma**: after `n` rounds the services listed are those of
depth less than `n`, by depth and then by id. -/
theorem stopRounds_spec {next : String → List String} (hacyclic : Acyclic next)
    {requested : List String} (fuel n : Nat) (remaining result : List String)
    (hfuel : remaining.length ≤ fuel)
    (hremaining : Remaining next requested n remaining)
    (hperm : requested.Perm (result ++ remaining))
    (hbefore : ∀ id ∈ result, chainDepth next requested id < n)
    (horder : result.Pairwise (DepthBefore next requested)) :
    ∃ order, stopRounds next fuel remaining result = .ok order ∧ requested.Perm order ∧
      order.Pairwise (DepthBefore next requested) := by
  induction fuel generalizing n remaining result with
  | zero =>
      obtain rfl : remaining = [] := List.length_eq_zero_iff.mp (by omega)
      exact ⟨result, by simp [stopRounds], by simpa using hperm, horder⟩
  | succ fuel ih =>
      by_cases hnil : remaining = []
      · subst hnil
        exact ⟨result, by simp [stopRounds], by simpa using hperm, horder⟩
      · obtain ⟨hnodup, hmem, hlen⟩ := hremaining
        set ready := sortTexts (remaining.filter fun id =>
          (next id).all fun dependent => dependent ∉ remaining) with hready
        have hmemReady : ∀ id, id ∈ ready ↔
            id ∈ remaining ∧ ∀ dependent ∈ next id, dependent ∉ remaining := by
          intro id
          simp [hready]
        obtain ⟨m, hm, hmin⟩ := exists_minimal (r := fun a b => Edge next b a) (l := remaining)
          (fun a ha => hacyclic a (transGen_swap.mp ha)) hnil
        have hmReady : m ∈ ready := (hmemReady m).mpr ⟨hm, fun d hd hdm => hmin d hdm hd⟩
        have hdepth : ∀ id ∈ ready, chainDepth next requested id = n := by
          intro id hid
          obtain ⟨hin, hnone⟩ := (hmemReady id).mp hid
          have hpos := List.length_pos_of_mem hin
          have hchain := (hmem id).mp hin
          have hle := (le_chainDepth_iff (by omega) (mem_of_hasChain hchain)).mpr hchain
          have hnot : ¬ n + 1 ≤ chainDepth next requested id := by
            rw [le_chainDepth_iff (by omega) (mem_of_hasChain hchain), hasChain_succ]
            rintro ⟨-, d, hd, hdchain⟩
            exact hnone d hd ((hmem d).mpr hdchain)
          omega
        have hparts : (ready ++ remaining.filter (· ∉ ready)).Perm remaining := by
          refine List.Perm.trans ?_ (List.filter_append_perm (fun id => decide (id ∈ ready)) remaining)
          have hfilter : remaining.filter (fun id => decide (id ∈ ready)) =
              remaining.filter fun id => (next id).all fun d => decide (d ∉ remaining) := by
            refine List.filter_congr fun id hid => ?_
            rw [Bool.eq_iff_iff]
            simp [hmemReady, hid]
          rw [hfilter]
          have happend := (sortTexts_perm (remaining.filter fun id =>
            (next id).all fun d => decide (d ∉ remaining))).append_right
              (remaining.filter fun id => decide (id ∉ ready))
          rw [← hready] at happend
          simpa using happend
        have hstep : stopRounds next (fuel + 1) remaining result =
            stopRounds next fuel (remaining.filter (· ∉ ready)) (result ++ ready) := by
          rw [stopRounds, if_neg hnil]
          exact if_neg (List.ne_nil_of_mem hmReady)
        have hshorter := hparts.length_eq
        have hpos := List.length_pos_of_mem hmReady
        rw [List.length_append] at hshorter
        rw [hstep]
        refine ih (n + 1) _ _ (by omega) ⟨hnodup.filter _, ?_, by omega⟩ ?_ ?_ ?_
        · intro id
          rw [hasChain_succ]
          simp only [List.mem_filter, decide_eq_true_eq, hmemReady, hmem]
          constructor
          · rintro ⟨hin, hnot⟩
            push Not at hnot
            exact ⟨mem_of_hasChain hin, hnot hin⟩
          · rintro ⟨hreq, d, hd, hdchain⟩
            have hin := hasChain_of_succ (hasChain_succ.mpr ⟨hreq, d, hd, hdchain⟩)
            exact ⟨hin, fun hnone => hnone.2 d hd hdchain⟩
        · refine hperm.trans ?_
          rw [List.append_assoc]
          exact hparts.symm.append_left result
        · intro id hid
          rcases List.mem_append.mp hid with hid | hid
          · have := hbefore id hid
            omega
          · have := hdepth id hid
            omega
        · rw [List.pairwise_append]
          refine ⟨horder, ?_, ?_⟩
          · have hsorted := sortTexts_sorted (remaining.filter fun id =>
              (next id).all fun dependent => dependent ∉ remaining)
            have hnodupReady : ready.Nodup :=
              (sortTexts_perm _).nodup_iff.mpr (hnodup.filter _)
            refine (hsorted.and hnodupReady).imp_of_mem ?_
            rintro a b ha hb ⟨hle, hne⟩
            exact Or.inr ⟨by rw [hdepth a ha, hdepth b hb], lt_of_le_of_ne hle hne⟩
          · intro a ha b hb
            exact Or.inl (by rw [hdepth b hb]; exact hbefore a ha)

/-- The order of the rounds is that of depths, so it respects the dependencies
between requested services when the depths do. -/
theorem dependentFirstRequestedOrder_spec (graph : RegisteredServiceDependencyGraph)
    (requested : List String) (hnodup : requested.Nodup) :
    ∃ order, dependentFirstRequestedOrder requested graph = .ok order ∧ requested.Perm order ∧
      order.Pairwise (DepthBefore graph.directDependentsOf requested) := by
  refine stopRounds_spec graph.acyclic_dependents requested.length 0 requested [] le_rfl
    ⟨hnodup, fun id => ?_, le_rfl⟩ (List.Perm.refl _) (by simp) List.Pairwise.nil
  simp [hasChain]

/-! ## The orchestration -/

inductive StopCall where
  | catalogList
  | readStatus (service : RegisteredService)
  | getGraph
  | stop (service : RegisteredService)
  | now

abbrev StopCall.Answer : StopCall → Type
  | catalogList => List RegisteredService
  | readStatus _ => ServiceRuntimeState
  | getGraph => RegisteredServiceDependencyGraph
  | stop _ => Unit
  | now => Timestamp

abbrev StopProg := Prog StopCall StopCall.Answer StopError
abbrev StopLog := Prog.Log StopCall StopCall.Answer StopError

/-- The service a map built from the catalogue holds under an id. -/
def findService (services : List RegisteredService) (id : String) : Option RegisteredService :=
  services.reverse.find? (·.id = id)

/-- The state of every requested service, `unknown` when it cannot be read. -/
def readSnapshots (services : List RegisteredService) :
    List String → StopProg (List (String × ServiceRuntimeState))
  | [] => pure []
  | id :: ids => do
    let state ←
      match findService services id with
      | some service => do
        match ← (Prog.perform (StopCall.readStatus service)).attempt with
        | .ok state => pure state
        | .error _ => pure .unknown
      -- every requested service was found in the catalogue
      | none => pure .unknown
    let states ← readSnapshots services ids
    return (id, state) :: states

/-- Stop the services in order, up to the first that cannot be stopped. -/
def runStops (services : List RegisteredService)
    (snapshots : List (String × ServiceRuntimeState)) :
    List String → List RegisteredServiceStopStep → StopProg (List RegisteredServiceStopStep)
  | [], steps => pure steps
  | serviceId :: order, steps =>
    let failed (code : StopFailureCode) : StopProg (List RegisteredServiceStopStep) :=
      pure (steps ++ [{ serviceId, outcome := .failed code }])
    match snapshots.lookup serviceId, findService services serviceId with
    | none, _ => failed .servicePlanInvalid
    | some .stopped, _ =>
      runStops services snapshots order (steps ++ [{ serviceId, outcome := .alreadyStopped }])
    | some .running, some service =>
      if .stop ∉ service.supportedOperations then failed .serviceStopNotSupported
      else do
        match ← (Prog.perform (StopCall.stop service)).attempt with
        | .ok () =>
          runStops services snapshots order (steps ++ [{ serviceId, outcome := .stopped }])
        | .error _ => failed .serviceStopFailed
    | some _, _ => failed .serviceStatusFailed

/-- `OrchestrateRegisteredServicesStop.execute`. -/
def orchestrateStop (input : JsValue) (requestedAt : Option String) :
    StopProg RegisteredServicesStopResult := do
  let now ←
    match requestedAt with
    | some requestedAt => pure requestedAt
    | none => do
      let now ← Prog.perform StopCall.now
      pure now.text
  let ids ← Prog.ofExcept (validateInput input)
  let invalid := Prog.ofExcept (failedResult now (ids.headD ""))
  match ← (Prog.perform StopCall.catalogList).attempt with
  | .error _ => invalid
  | .ok services =>
    if ids.any fun id => (findService services id).isNone then .throw .servicePlanInvalid
    else do
      let snapshots ← readSnapshots services ids
      match ← (Prog.perform StopCall.getGraph).attempt with
      | .error _ => invalid
      | .ok graph =>
        match dependentFirstRequestedOrder ids graph with
        | .error _ => invalid
        | .ok order => do
          let steps ← runStops services snapshots order []
          Prog.ofExcept (createRegisteredServicesStopResult {
            requestedAt := now
            steps
            successful := !steps.any (·.outcome.isFailed) })

/-! ## What a run may do -/

/-- Any port may answer anything or throw, but the graph is the given one. -/
def graphAnswers (graph : RegisteredServiceDependencyGraph) :
    (c : StopCall) → Except StopError c.Answer → Prop
  | .getGraph, .ok graph' => graph' = graph
  | _, _ => True

/-- A service was seen to be stopped, or was stopped. -/
def Handled (id : String) (log : StopLog) : Prop :=
  ∃ service : RegisteredService, service.id = id ∧
    (⟨.readStatus service, .ok .stopped⟩ ∈ log ∨ ⟨.stop service, .ok ()⟩ ∈ log)

/-- What has to be true when the stop of a service is attempted. -/
structure StopAllowed (graph : RegisteredServiceDependencyGraph) (requested : List String)
    (service : RegisteredService) (past : StopLog) : Prop where
  isRequested : service.id ∈ requested
  first : ∀ s r, ⟨.stop s, r⟩ ∈ past → s.id ≠ service.id
  noneFailed : ∀ s r, ⟨.stop s, r⟩ ∈ past → r = .ok ()
  dependents : ∀ id ∈ requested, id ≠ service.id → graph.DependsOn id service.id →
    Handled id past

/-- Every stop of a run was allowed when it was attempted. -/
def OrderedStops (graph : RegisteredServiceDependencyGraph) (requested : List String)
    (log : StopLog) : Prop :=
  ∀ later service r past, log = later ++ ⟨.stop service, r⟩ :: past →
    StopAllowed graph requested service past

/-- The steps are requested services, each once, only the last may have failed,
and without a failure they are all of them. -/
structure EnumeratesRequested (requested : List String) (steps : List RegisteredServiceStopStep) :
    Prop where
  nodup : (steps.map (·.serviceId)).Nodup
  subset : ∀ step ∈ steps, step.serviceId ∈ requested
  failedLast : ∀ step ∈ steps.dropLast, ¬ step.outcome.isFailed
  complete : (∀ step ∈ steps, ¬ step.outcome.isFailed) →
    (steps.map (·.serviceId)).Perm requested

/-- The ordering loop ends, every run stops the services as allowed and a result
enumerates the requested services. -/
def StopsDependentsFirst (graph : RegisteredServiceDependencyGraph) (input : JsValue)
    (requestedAt : Option String) : Prop :=
  ∀ ids, validateInput input = .ok ids →
    (∃ order, dependentFirstRequestedOrder ids graph = .ok order) ∧
    (∀ log, Prog.Reach (Prog.logged (graphAnswers graph)) (orchestrateStop input requestedAt)
      [] log → OrderedStops graph ids log) ∧
    ∀ result log, Prog.Exec (Prog.logged (graphAnswers graph))
      (orchestrateStop input requestedAt) [] (.ok result) log →
      EnumeratesRequested ids result.steps

/-! ## Every run -/

section Runs

variable {graph : RegisteredServiceDependencyGraph} {requested order : List String}

def NoStops (log : StopLog) : Prop := ∀ s r, (⟨.stop s, r⟩ : Prog.Event _ _ _) ∉ log

theorem NoStops.ordered {log : StopLog} (h : NoStops log) : OrderedStops graph requested log := by
  rintro later service r past rfl
  exact absurd (List.mem_append_right later List.mem_cons_self) (h service r)

theorem NoStops.cons {log : StopLog} (h : NoStops log) {c : StopCall} (hc : ∀ s, c ≠ .stop s)
    (r : Except StopError c.Answer) : NoStops (⟨c, r⟩ :: log) := by
  intro s r' hmem
  rcases List.mem_cons.mp hmem with heq | hmem
  · exact hc s (congrArg Prog.Event.call heq).symm
  · exact h s r' hmem

/-- One more stop, which was allowed. -/
theorem OrderedStops.cons_stop {log : StopLog} (h : OrderedStops graph requested log)
    {service : RegisteredService} (hallowed : StopAllowed graph requested service log)
    (r : Except StopError Unit) : OrderedStops graph requested (⟨.stop service, r⟩ :: log) := by
  intro later s r' past heq
  cases later with
  | nil =>
      obtain ⟨hev, rfl⟩ := List.cons.inj heq
      cases hev
      exact hallowed
  | cons ev later => exact h later s r' past (List.cons.inj heq).2

theorem Handled.cons {id : String} {log : StopLog} (h : Handled id log)
    (ev : Prog.Event StopCall StopCall.Answer StopError) : Handled id (ev :: log) := by
  obtain ⟨s, hs, hmem⟩ := h
  exact ⟨s, hs, hmem.imp (List.mem_cons_of_mem _) (List.mem_cons_of_mem _)⟩

theorem findService_id {services : List RegisteredService} {id : String}
    {service : RegisteredService} (h : findService services id = some service) :
    service.id = id := by
  simpa using List.find?_some h

/-- Reading the states stops nothing, and a service seen stopped was. -/
theorem readSnapshots_spec (services : List RegisteredService) (ids : List String)
    {log : StopLog} (hlog : NoStops log) :
    Prog.Spec (Prog.logged (graphAnswers graph)) (OrderedStops graph requested)
      (readSnapshots services ids)
      (fun o log' => ∃ snapshots, o = .ok snapshots ∧ NoStops log' ∧
        (∀ id, Handled id log → Handled id log') ∧
        ∀ id, snapshots.lookup id = some .stopped → Handled id log') log := by
  induction ids generalizing log with
  | nil => exact ⟨[], rfl, hlog, fun _ h => h, by simp⟩
  | cons id ids ih =>
      -- what is left to do once the state of `id` is known
      have hrest : ∀ (state : ServiceRuntimeState) (log' : StopLog), NoStops log' →
          (∀ id, Handled id log → Handled id log') → (state = .stopped → Handled id log') →
          Prog.Spec (Prog.logged (graphAnswers graph)) (OrderedStops graph requested)
            (do let states ← readSnapshots services ids; return (id, state) :: states)
            (fun o log'' => ∃ snapshots, o = .ok snapshots ∧ NoStops log'' ∧
              (∀ id, Handled id log → Handled id log'') ∧
              ∀ id, snapshots.lookup id = some .stopped → Handled id log'') log' := by
        intro state log' hno hmono hstopped
        rw [Prog.spec_bind]
        refine (ih hno).mono (fun _ h => h) ?_
        rintro o log'' ⟨snapshots, rfl, hno', hmono', hsnap⟩
        refine ⟨(id, state) :: snapshots, rfl, hno', fun i h => hmono' i (hmono i h), ?_⟩
        intro i hi
        rw [List.lookup_cons] at hi
        by_cases hid : i = id
        · subst hid
          simp only [beq_self_eq_true] at hi
          exact hmono' i (hstopped (Option.some.inj hi))
        · have hbeq : (i == id) = false := by simpa using hid
          rw [hbeq] at hi
          exact hsnap i hi
      rw [readSnapshots]
      cases hfind : findService services id with
      | none =>
          simp only [Prog.spec_bind, Prog.spec_pure]
          simpa only [Prog.spec_bind, Prog.spec_pure] using
            hrest .unknown log hlog (fun _ h => h) (by simp)
      | some service =>
          simp only [Prog.spec_bind, Prog.spec_attempt, Prog.spec_perform, Prog.logged_iff]
          rintro r log' ⟨-, rfl⟩
          have hno := hlog.cons (c := .readStatus service) (by simp) r
          refine ⟨hno.ordered, ?_⟩
          cases r with
          | error e =>
              simp only
              simpa only [Prog.spec_bind, Prog.spec_pure] using
                hrest .unknown _ hno (fun _ h => h.cons _) (by simp)
          | ok state =>
              simp only
              have hstopped : state = .stopped →
                  Handled id (⟨.readStatus service, .ok state⟩ :: log) := by
                rintro rfl
                exact ⟨service, findService_id hfind, Or.inl List.mem_cons_self⟩
              simpa only [Prog.spec_bind, Prog.spec_pure] using
                hrest state _ hno (fun _ h => h.cons _) hstopped

/-- The services of `done` are dealt with, and nothing else was stopped. -/
structure StopInv (graph : RegisteredServiceDependencyGraph) (requested done : List String)
    (snapshots : List (String × ServiceRuntimeState)) (log : StopLog) : Prop where
  ordered : OrderedStops graph requested log
  stops : ∀ s r, ⟨.stop s, r⟩ ∈ log → s.id ∈ done ∧ r = .ok ()
  handled : ∀ id ∈ done, Handled id log
  seen : ∀ id, snapshots.lookup id = some .stopped → Handled id log

section StopInv

variable {done rest : List String} {snapshots : List (String × ServiceRuntimeState)} {log : StopLog}
  {service : RegisteredService}

/-- The next service of the order may be stopped. -/
theorem StopInv.allowed (h : StopInv graph requested done snapshots log) (hnodup : requested.Nodup)
    (hperm : requested.Perm (done ++ service.id :: rest))
    (horder : (done ++ service.id :: rest).Pairwise fun a b => ¬ graph.DependsOn b a) :
    StopAllowed graph requested service log := by
  have hall := hperm.nodup_iff.mp hnodup
  refine ⟨hperm.mem_iff.mpr (by simp), ?_, fun s r hmem => (h.stops s r hmem).2, ?_⟩
  · intro s r hmem heq
    have hdone := (h.stops s r hmem).1
    rw [heq] at hdone
    exact List.disjoint_of_nodup_append hall hdone List.mem_cons_self
  · intro x hx hne hdep
    refine h.handled x ?_
    have hmem := hperm.mem_iff.mp hx
    rw [List.pairwise_append, List.pairwise_cons] at horder
    simp only [List.mem_append, List.mem_cons, hne, false_or] at hmem
    exact hmem.resolve_right fun hrest => horder.2.1.1 x hrest hdep

/-- A service that was seen stopped is left alone. -/
theorem StopInv.leave (h : StopInv graph requested done snapshots log) {id : String}
    (hstopped : snapshots.lookup id = some .stopped) :
    StopInv graph requested (done ++ [id]) snapshots log where
  ordered := h.ordered
  stops := fun s r hmem => ⟨List.mem_append_left _ (h.stops s r hmem).1, (h.stops s r hmem).2⟩
  handled := by
    intro i hi
    rcases List.mem_append.mp hi with hi | hi
    · exact h.handled i hi
    · rw [List.mem_singleton.mp hi]
      exact h.seen id hstopped
  seen := h.seen

/-- A service that may be stopped is stopped. -/
theorem StopInv.stop (h : StopInv graph requested done snapshots log)
    (hallowed : StopAllowed graph requested service log) :
    StopInv graph requested (done ++ [service.id]) snapshots (⟨.stop service, .ok ()⟩ :: log) where
  ordered := h.ordered.cons_stop hallowed _
  stops := by
    intro s r hmem
    rcases List.mem_cons.mp hmem with heq | hmem
    · cases heq
      exact ⟨by simp, rfl⟩
    · exact ⟨List.mem_append_left _ (h.stops s r hmem).1, (h.stops s r hmem).2⟩
  handled := by
    intro i hi
    rcases List.mem_append.mp hi with hi | hi
    · exact (h.handled i hi).cons _
    · rw [List.mem_singleton.mp hi]
      exact ⟨service, rfl, Or.inr List.mem_cons_self⟩
  seen := fun i hi => (h.seen i hi).cons _

end StopInv

theorem EnumeratesRequested.of_failed {requested done rest : List String} {id : String}
    (hperm : requested.Perm (done ++ id :: rest)) (hnodup : requested.Nodup)
    {steps : List RegisteredServiceStopStep} (hsteps : steps.map (·.serviceId) = done)
    (hfine : ∀ step ∈ steps, ¬ step.outcome.isFailed) (code : StopFailureCode) :
    EnumeratesRequested requested (steps ++ [{ serviceId := id, outcome := .failed code }]) where
  nodup := by
    have hall := hperm.nodup_iff.mp hnodup
    rw [List.map_append, hsteps]
    exact hall.sublist (by simp)
  subset := by
    intro step hstep
    rw [hperm.mem_iff]
    rcases List.mem_append.mp hstep with h | h
    · exact List.mem_append_left _ (hsteps ▸ List.mem_map_of_mem h)
    · simp [List.mem_singleton.mp h]
  failedLast := by simpa using hfine
  complete := by
    intro hnone
    exact absurd rfl (hnone _ (List.mem_append_right _ (List.mem_singleton.mpr rfl)))

/-- **Stop loop, run lemma**: from any point of an order that respects the
dependencies, the rest of the run stops the services as allowed. -/
theorem runStops_spec (services : List RegisteredService)
    (snapshots : List (String × ServiceRuntimeState)) (hnodup : requested.Nodup)
    (hperm : requested.Perm order) (horder : order.Pairwise fun a b => ¬ graph.DependsOn b a)
    (rest done : List String) (hsplit : order = done ++ rest)
    (steps : List RegisteredServiceStopStep) (hsteps : steps.map (·.serviceId) = done)
    (hfine : ∀ step ∈ steps, ¬ step.outcome.isFailed) {log : StopLog}
    (hlog : StopInv graph requested done snapshots log) :
    Prog.Spec (Prog.logged (graphAnswers graph)) (OrderedStops graph requested)
      (runStops services snapshots rest steps)
      (fun o _ => ∃ steps', o = .ok steps' ∧ EnumeratesRequested requested steps') log := by
  induction rest generalizing done steps log with
  | nil =>
      rw [List.append_nil] at hsplit
      subst hsplit hsteps
      exact ⟨steps, rfl, hperm.nodup_iff.mp hnodup,
        fun step hstep => hperm.mem_iff.mpr (List.mem_map_of_mem hstep),
        fun step hstep => hfine step (List.dropLast_subset _ hstep), fun _ => hperm.symm⟩
  | cons id rest ih =>
      have hpermSplit : requested.Perm (done ++ id :: rest) := hsplit ▸ hperm
      have hfailed := EnumeratesRequested.of_failed hpermSplit hnodup hsteps hfine
      -- `id` joins the services that are dealt with
      have hnext : ∀ (outcome : StopOutcome) (log' : StopLog), ¬ outcome.isFailed →
          StopInv graph requested (done ++ [id]) snapshots log' →
          Prog.Spec (Prog.logged (graphAnswers graph)) (OrderedStops graph requested)
            (runStops services snapshots rest (steps ++ [{ serviceId := id, outcome }]))
            (fun o _ => ∃ steps', o = .ok steps' ∧ EnumeratesRequested requested steps') log' := by
        intro outcome log' houtcome hinv
        refine ih (done ++ [id]) (by simp [hsplit]) _ (by simp [hsteps]) ?_ hinv
        intro step hstep
        rcases List.mem_append.mp hstep with h | h
        · exact hfine step h
        · rw [List.mem_singleton.mp h]
          exact houtcome
      rw [runStops]
      cases hstate : snapshots.lookup id with
      | none => exact ⟨_, rfl, hfailed _⟩
      | some state =>
          cases state with
          | stopped =>
              exact hnext .alreadyStopped log (by simp [StopOutcome.isFailed]) (hlog.leave hstate)
          | failed => exact ⟨_, rfl, hfailed _⟩
          | unknown => exact ⟨_, rfl, hfailed _⟩
          | running =>
              cases hfind : findService services id with
              | none => exact ⟨_, rfl, hfailed _⟩
              | some service =>
                  obtain rfl := findService_id hfind
                  simp only
                  split
                  · exact ⟨_, rfl, hfailed _⟩
                  · simp only [Prog.spec_bind, Prog.spec_attempt, Prog.spec_perform,
                      Prog.logged_iff]
                    rintro r log' ⟨-, rfl⟩
                    have hallowed := hlog.allowed hnodup hpermSplit (hsplit ▸ horder)
                    refine ⟨hlog.ordered.cons_stop hallowed r, ?_⟩
                    cases r with
                    | error e => exact ⟨_, rfl, hfailed _⟩
                    | ok u =>
                        exact hnext .stopped _ (by simp [StopOutcome.isFailed]) (hlog.stop hallowed)

theorem createRegisteredServicesStopResult_ok {result result' : RegisteredServicesStopResult}
    (h : createRegisteredServicesStopResult result = .ok result') : result' = result := by
  simp only [createRegisteredServicesStopResult] at h
  split_ifs at h
  exact (Except.ok.inj h).symm

theorem failedResult_ok {requestedAt id : String} {result : RegisteredServicesStopResult}
    (h : failedResult requestedAt id = .ok result) (hid : id ∈ requested) :
    EnumeratesRequested requested result.steps := by
  rw [createRegisteredServicesStopResult_ok h]
  exact ⟨by simp, by simpa using hid, by simp, by simp [StopOutcome.isFailed]⟩

/-- **Orchestration**: when the order respects the dependencies, every run stops
the services as allowed and its result enumerates the requested services. -/
theorem orchestrateStop_spec {input : JsValue} (requestedAt : Option String)
    (hvalid : validateInput input = .ok requested)
    (horder : dependentFirstRequestedOrder requested graph = .ok order)
    (hperm : requested.Perm order) (hpair : order.Pairwise fun a b => ¬ graph.DependsOn b a) :
    Prog.Spec (Prog.logged (graphAnswers graph)) (OrderedStops graph requested)
      (orchestrateStop input requestedAt)
      (fun o _ => ∀ result, o = .ok result → EnumeratesRequested requested result.steps) [] := by
  obtain ⟨hne, -, hnodup, -⟩ := validateInput_ok hvalid
  have hhead : requested.headD "" ∈ requested := by
    cases hreq : requested with
    | nil => exact absurd hreq hne
    | cons id ids => simp
  -- the run once the time of the request is known; nothing is stopped before
  have hmain : ∀ (now : String) (log : StopLog), NoStops log →
      Prog.Spec (Prog.logged (graphAnswers graph)) (OrderedStops graph requested)
        (orchestrateStop input (some now))
        (fun o _ => ∀ result, o = .ok result → EnumeratesRequested requested result.steps)
        log := by
    intro now log hlog
    simp only [orchestrateStop, hvalid, Prog.spec_bind, Prog.spec_pure, Prog.spec_ofExcept,
      Prog.spec_attempt, Prog.spec_perform, Prog.logged_iff]
    rintro catalogue log₁ ⟨-, rfl⟩
    have hlog₁ := hlog.cons (c := .catalogList) (by simp) catalogue
    refine ⟨hlog₁.ordered, ?_⟩
    cases catalogue with
    | error e =>
        simp only [Prog.spec_ofExcept]
        exact fun result h => failedResult_ok h hhead
    | ok services =>
        simp only
        split
        · simp
        · simp only [Prog.spec_bind]
          refine (readSnapshots_spec services requested hlog₁).mono (fun _ h => h) ?_
          rintro o log₂ ⟨snapshots, rfl, hlog₂, -, hseen⟩
          simp only [Prog.spec_attempt, Prog.spec_perform, Prog.logged_iff]
          rintro answer log₃ ⟨hanswer, rfl⟩
          have hlog₃ := hlog₂.cons (c := .getGraph) (by simp) answer
          refine ⟨hlog₃.ordered, ?_⟩
          cases answer with
          | error e =>
              simp only [Prog.spec_ofExcept]
              exact fun result h => failedResult_ok h hhead
          | ok graph' =>
              obtain rfl : graph' = graph := hanswer
              simp only [horder, Prog.spec_bind]
              refine (runStops_spec services snapshots hnodup hperm hpair order [] rfl [] rfl
                (by simp) ⟨hlog₃.ordered, ?_, by simp, fun i hi => (hseen i hi).cons _⟩).mono
                (fun _ h => h) ?_
              · exact fun s r hmem => absurd hmem (hlog₃ s r)
              · rintro o log₄ ⟨steps, rfl, hsteps⟩
                simp only [Prog.spec_ofExcept]
                intro result h
                rw [createRegisteredServicesStopResult_ok h]
                exact hsteps
  cases requestedAt with
  | some now => exact hmain now [] (by simp [NoStops])
  | none =>
      rw [orchestrateStop]
      simp only [Prog.spec_bind, Prog.spec_perform, Prog.logged_iff]
      rintro now log ⟨-, rfl⟩
      have hlog : NoStops (⟨.now, now⟩ :: []) :=
        NoStops.cons (c := .now) (by simp [NoStops]) (by simp) now
      refine ⟨hlog.ordered, ?_⟩
      cases now with
      | error e => simp
      | ok now => simpa [orchestrateStop] using hmain now.text _ hlog

end Runs

/-! ## When the order respects the dependencies -/

/-- Whenever one requested service depends on another, directly or not, it has
the shorter chain of requested dependents above it, or an equally long one and
the smaller id. -/
def ChainOrdered (graph : RegisteredServiceDependencyGraph) (requested : List String) : Prop :=
  ∀ x ∈ requested, ∀ y ∈ requested, graph.DependsOn x y →
    DepthBefore graph.directDependentsOf requested x y

section Exactness

variable {graph : RegisteredServiceDependencyGraph} {requested order : List String}

theorem pairwise_iff_chainOrdered (hperm : requested.Perm order)
    (hdepth : order.Pairwise (DepthBefore graph.directDependentsOf requested)) :
    (order.Pairwise fun a b => ¬ graph.DependsOn b a) ↔ ChainOrdered graph requested := by
  constructor
  · intro hpair x hx y hy hdep
    have hne : x ≠ y := by
      rintro rfl
      exact graph.not_dependsOn_self x hdep
    obtain ⟨l₁, l₂, rfl⟩ := List.append_of_mem (hperm.mem_iff.mp hx)
    rw [List.pairwise_append, List.pairwise_cons] at hpair hdepth
    have hy' := hperm.mem_iff.mp hy
    simp only [List.mem_append, List.mem_cons, hne.symm, false_or] at hy'
    rcases hy' with hy' | hy'
    · exact absurd hdep (hpair.2.2 y hy' x List.mem_cons_self)
    · exact hdepth.2.1.1 y hy'
  · intro hchain
    refine hdepth.imp_of_mem ?_
    intro a b ha hb hbefore hdep
    exact hbefore.asymm (hchain b (hperm.mem_iff.mpr hb) a (hperm.mem_iff.mpr ha) hdep)

/-- When every service between two requested ones is requested too, the rounds
put each service after those that depend on it. -/
theorem chainOrdered_of_between
    (hbetween : ∀ x ∈ requested, ∀ y ∈ requested, ∀ z, graph.DependsOn x z →
      graph.DependsOn z y → z ∈ requested) : ChainOrdered graph requested := by
  intro x hx y hy hdep
  refine Or.inl ?_
  have hedge : ∀ a ∈ requested, ∀ b ∈ requested, b ∈ graph.directDependenciesOf a →
      chainDepth graph.directDependentsOf requested a <
        chainDepth graph.directDependentsOf requested b := fun a ha b hb h =>
    chainDepth_lt_of_edge graph.acyclic_dependents hb ha (graph.mem_directDependentsOf.mpr h)
  induction hdep with
  | single h => exact hedge x hx _ hy h
  | tail hreach h ih =>
      have hz := hbetween x hx _ hy _ hreach (.single h)
      exact (ih hz).trans (hedge _ hz _ hy h)

/-! ### A run in which nothing fails -/

def obligingService (id : String) : RegisteredService where
  id
  supportedOperations := [.readStatus, .stop]
  dependencies := []
  availabilityPolicy := .manual

/-- Every service is listed, running, and stops when it is told to. -/
def obligingAnswer (graph : RegisteredServiceDependencyGraph) (ids : List String) :
    (c : StopCall) → Except StopError c.Answer
  | .catalogList => .ok (ids.map obligingService)
  | .readStatus _ => .ok .running
  | .getGraph => .ok graph
  | .stop _ => .ok ()
  | .now => .ok ⟨0, Timestamp.zero_inRange⟩

def obligingWorld (graph : RegisteredServiceDependencyGraph) (ids : List String)
    (log : StopLog) (c : StopCall) : Except StopError c.Answer × StopLog :=
  (obligingAnswer graph ids c, ⟨c, obligingAnswer graph ids c⟩ :: log)

theorem obligingWorld_logged (ids : List String) (log : StopLog) (c : StopCall) :
    Prog.logged (graphAnswers graph) log c (obligingWorld graph ids log c).1
      (obligingWorld graph ids log c).2 := by
  refine ⟨?_, rfl⟩
  cases c <;> simp [obligingWorld, obligingAnswer, graphAnswers]

theorem findService_oblige {ids : List String} {id : String} (h : id ∈ ids) :
    findService (ids.map obligingService) id = some (obligingService id) := by
  have hsome : (findService (ids.map obligingService) id).isSome := by
    rw [findService, List.find?_isSome]
    exact ⟨obligingService id, List.mem_reverse.mpr (List.mem_map_of_mem h),
      by simp [obligingService]⟩
  obtain ⟨service, hfind⟩ := Option.isSome_iff_exists.mp hsome
  obtain ⟨id', -, rfl⟩ := List.mem_map.mp
    (List.mem_reverse.mp (List.mem_of_find?_eq_some hfind))
  have hid : id' = id := findService_id hfind
  rw [hfind, hid]

/-- In such a run no service is seen stopped before it is told to stop. -/
theorem run_readSnapshots (graph : RegisteredServiceDependencyGraph) (ids : List String) (asked : List String) (hsub : asked ⊆ ids)
    (log : StopLog) (hlog : ∀ id, ¬ Handled id log) :
    ∃ log', Prog.run (obligingWorld graph ids)
        (readSnapshots (ids.map obligingService) asked) log =
        (.ok (asked.map fun id => (id, .running)), log') ∧ ∀ id, ¬ Handled id log' := by
  induction asked generalizing log with
  | nil => exact ⟨log, rfl, hlog⟩
  | cons id asked ih =>
      have hlog' : ∀ i, ¬ Handled i
          (⟨.readStatus (obligingService id), .ok .running⟩ :: log) := by
        rintro i ⟨s, hs, hmem⟩
        refine hlog i ⟨s, hs, ?_⟩
        simpa using hmem
      obtain ⟨log'', hrun, hnone⟩ := ih (List.cons_subset.mp hsub).2 _ hlog'
      refine ⟨log'', ?_, hnone⟩
      rw [readSnapshots, findService_oblige (hsub List.mem_cons_self)]
      simp [obligingWorld, obligingAnswer] at hrun ⊢
      simp [hrun]

theorem lookup_map_const {α : Type*} {ids : List String} {id : String} (h : id ∈ ids) (a : α) :
    (ids.map fun i => (i, a)).lookup id = some a := by
  induction ids with
  | nil => simp at h
  | cons i ids ih =>
      rw [List.map_cons, List.lookup_cons]
      by_cases hi : id = i
      · simp [hi]
      · have hbeq : (id == i) = false := by simpa using hi
        rw [hbeq]
        exact ih ((List.mem_cons.mp h).resolve_left hi)

/-- The successful stop of a service. -/
def stopEvent (id : String) : Prog.Event StopCall StopCall.Answer StopError :=
  ⟨.stop (obligingService id), .ok ()⟩

/-- Such a run stops the services of the order one after the other. -/
theorem run_runStops (graph : RegisteredServiceDependencyGraph) (ids : List String) (rest : List String) (hsub : rest ⊆ ids)
    (steps : List RegisteredServiceStopStep) (log : StopLog) :
    ∃ steps', Prog.run (obligingWorld graph ids) (runStops (ids.map obligingService)
        (ids.map fun id => (id, .running)) rest steps) log =
      (.ok steps', (rest.map stopEvent).reverse ++ log) := by
  induction rest generalizing steps log with
  | nil => exact ⟨steps, rfl⟩
  | cons id rest ih =>
      have hid := hsub List.mem_cons_self
      have hlookup : (ids.map fun id => (id, ServiceRuntimeState.running)).lookup id =
          some .running := lookup_map_const hid _
      obtain ⟨steps', hrun⟩ := ih (List.cons_subset.mp hsub).2
        (steps ++ [{ serviceId := id, outcome := .stopped }])
        (stopEvent id :: log)
      refine ⟨steps', ?_⟩
      rw [runStops, hlookup, findService_oblige hid]
      simp [obligingWorld, obligingAnswer, obligingService, stopEvent] at hrun ⊢
      simp [hrun]

theorem run_orchestrateStop {input : JsValue} (requestedAt : Option String)
    (hvalid : validateInput input = .ok requested)
    (horder : dependentFirstRequestedOrder requested graph = .ok order)
    (hperm : requested.Perm order) :
    ∃ before, (∀ id, ¬ Handled id before) ∧
      (Prog.run (obligingWorld graph requested) (orchestrateStop input requestedAt) []).2 =
        (order.map stopEvent).reverse ++ before := by
  have hknown : requested.any (fun id =>
      (findService (requested.map obligingService) id).isNone) = false := by
    simp only [List.any_eq_false]
    intro id hid
    simp [findService_oblige hid]
  have hmain : ∀ (now : String) (log : StopLog), (∀ id, ¬ Handled id log) →
      ∃ before, (∀ id, ¬ Handled id before) ∧
        (Prog.run (obligingWorld graph requested) (orchestrateStop input (some now)) log).2 =
          (order.map stopEvent).reverse ++ before := by
    intro now log hlog
    obtain ⟨log', hsnap, hlog'⟩ := run_readSnapshots graph requested requested
      (List.Subset.refl _) (⟨.catalogList, .ok (requested.map obligingService)⟩ :: log)
      (fun i ⟨s, hs, hmem⟩ => hlog i ⟨s, hs, by simpa using hmem⟩)
    obtain ⟨steps, hstops⟩ := run_runStops graph requested order
      (fun id hid => hperm.mem_iff.mpr hid) [] (⟨.getGraph, .ok graph⟩ :: log')
    refine ⟨⟨.getGraph, .ok graph⟩ :: log',
      fun i ⟨s, hs, hmem⟩ => hlog' i ⟨s, hs, by simpa using hmem⟩, ?_⟩
    simp only [orchestrateStop, Prog.run_bind, Prog.run_pure, Prog.run_ofExcept, hvalid,
      Prog.run_attempt, Prog.run_perform, obligingWorld, obligingAnswer] at hsnap hstops ⊢
    rw [hknown]
    simp [hsnap, horder, hstops, obligingWorld, obligingAnswer]
  cases requestedAt with
  | some now => exact hmain now [] (by simp [Handled])
  | none =>
      obtain ⟨before, hbefore, hlog⟩ := hmain (Timestamp.text ⟨0, by decide⟩)
        [⟨.now, .ok ⟨0, by decide⟩⟩] (by simp [Handled])
      refine ⟨before, hbefore, ?_⟩
      rw [← hlog]
      simp [orchestrateStop, obligingWorld, obligingAnswer]

/-- An order that every run can follow safely respects the dependencies. -/
theorem pairwise_of_stopsDependentsFirst {input : JsValue} {requestedAt : Option String}
    (h : StopsDependentsFirst graph input requestedAt)
    (hvalid : validateInput input = .ok requested)
    (horder : dependentFirstRequestedOrder requested graph = .ok order)
    (hperm : requested.Perm order) :
    order.Pairwise fun a b => ¬ graph.DependsOn b a := by
  obtain ⟨-, hreach, -⟩ := h requested hvalid
  obtain ⟨-, -, hnodup, -⟩ := validateInput_ok hvalid
  obtain ⟨before, hbefore, hlog⟩ := run_orchestrateStop requestedAt hvalid horder hperm
  have hordered := hreach _ (Prog.exec_run (obligingWorld_logged requested) _ _).reach
  rw [hlog] at hordered
  refine pairwise_of_split fun l₁ a l₂ hsplit b hb hdep => ?_
  subst hsplit
  have hnodup' := hperm.nodup_iff.mp hnodup
  -- the log at the moment the stop of `a` is attempted
  have hallowed := hordered (l₂.map stopEvent).reverse (obligingService a) (.ok ())
    ((l₁.map stopEvent).reverse ++ before) (by simp [stopEvent])
  have hne : b ≠ a := by
    rintro rfl
    exact (List.nodup_cons.mp (List.nodup_append.mp hnodup').2.1).1 hb
  obtain ⟨s, hs, hmem⟩ := hallowed.dependents b (hperm.mem_iff.mpr (by simp [hb])) hne hdep
  have hnone : ∀ ev ∈ (l₁.map stopEvent).reverse, ∀ s : RegisteredService, s.id = b →
      ev.call ≠ .stop s ∧ ev.call ≠ .readStatus s := by
    intro ev hev s hs
    obtain ⟨id, hid, rfl⟩ := List.mem_map.mp (List.mem_reverse.mp hev)
    refine ⟨?_, by simp [stopEvent]⟩
    intro heq
    have hids : id = s.id := by
      cases heq
      rfl
    rw [hids, hs] at hid
    exact List.disjoint_of_nodup_append hnodup' hid (List.mem_cons_of_mem _ hb)
  simp only [List.mem_append] at hmem
  rcases hmem with (hmem | hmem) | (hmem | hmem)
  · exact (hnone _ hmem s hs).2 rfl
  · exact hbefore b ⟨s, hs, Or.inl hmem⟩
  · exact (hnone _ hmem s hs).1 rfl
  · exact hbefore b ⟨s, hs, Or.inr hmem⟩

end Exactness

/-- **Stop order**: every run ends its ordering loop, stops each service only
after the requested services that depend on it, and nothing after a failed stop,
exactly when the chains of requested dependents order the requested services
like their dependencies. -/
theorem stopsDependentsFirst_iff (graph : RegisteredServiceDependencyGraph) (input : JsValue)
    (requestedAt : Option String) :
    StopsDependentsFirst graph input requestedAt ↔
      ∀ ids, validateInput input = .ok ids → ChainOrdered graph ids := by
  constructor
  · intro h ids hvalid
    obtain ⟨-, -, hnodup, -⟩ := validateInput_ok hvalid
    obtain ⟨order, horder, hperm, hdepth⟩ := dependentFirstRequestedOrder_spec graph ids hnodup
    exact (pairwise_iff_chainOrdered hperm hdepth).mp
      (pairwise_of_stopsDependentsFirst h hvalid horder hperm)
  · intro h ids hvalid
    obtain ⟨-, -, hnodup, -⟩ := validateInput_ok hvalid
    obtain ⟨order, horder, hperm, hdepth⟩ := dependentFirstRequestedOrder_spec graph ids hnodup
    have hpair := (pairwise_iff_chainOrdered hperm hdepth).mpr (h ids hvalid)
    have hspec := orchestrateStop_spec requestedAt hvalid horder hperm hpair
    refine ⟨⟨order, horder⟩, fun log hreach => hspec.reach ?_ hreach,
      fun result log hexec => hspec.exec hexec result rfl⟩
    exact NoStops.ordered (by simp [NoStops])

/-- The application depends on the database through a service that is not
requested: the database is stopped first. -/
theorem stopsDependentsFirst_fails_through_unrequested :
    ∃ graph, createDependencyGraph [
        { serviceId := "a-db", dependencies := [] },
        { serviceId := "m", dependencies := ["a-db"] },
        { serviceId := "z-app", dependencies := ["m"] }] = .ok graph ∧
      ¬ StopsDependentsFirst graph (.obj [("authority", .str "machine_shutdown"),
        ("serviceIds", .arr [.str "a-db", .str "z-app"])]) none := by
  obtain ⟨graph, hgraph, hnodes⟩ := createDependencyGraph_eq_ok [
    { serviceId := "a-db", dependencies := [] },
    { serviceId := "m", dependencies := ["a-db"] },
    { serviceId := "z-app", dependencies := ["m"] }] (by decide) (by decide) (by decide)
  refine ⟨graph, hgraph, fun h => ?_⟩
  have hvalid : validateInput (.obj [("authority", .str "machine_shutdown"),
      ("serviceIds", .arr [.str "a-db", .str "z-app"])]) = .ok ["a-db", "z-app"] := by
    decide
  obtain ⟨order, horder, hperm, hdepth⟩ := dependentFirstRequestedOrder_spec graph
    ["a-db", "z-app"] (by decide)
  have hchain := (pairwise_iff_chainOrdered hperm hdepth).mp
    (pairwise_of_stopsDependentsFirst h hvalid horder hperm)
  have hdep : graph.DependsOn "z-app" "a-db" := by
    refine .tail (b := "m") (.single ?_) ?_
    · change "m" ∈ dependenciesIn graph.nodes "z-app"
      rw [hnodes]
      decide
    · change "a-db" ∈ dependenciesIn graph.nodes "m"
      rw [hnodes]
      decide
  have hbefore := hchain "z-app" (by decide) "a-db" (by decide) hdep
  have hdependents : graph.directDependentsOf = dependentsIn (graphNodes [
      { serviceId := "a-db", dependencies := [] },
      { serviceId := "m", dependencies := ["a-db"] },
      { serviceId := "z-app", dependencies := ["m"] }]) := by
    rw [← hnodes]
    rfl
  rw [hdependents] at hbefore
  revert hbefore
  decide

end AtlasManager.Service
