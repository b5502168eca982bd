import AtlasManager.AccessControl.ProtectedAdministration

/-!
# AtlasManager.AccessControl.ProtectedMutations

What the audit trail knows about a mutation, whatever the ports do.

* `Audited` -- what is asked of a run of a mutation;
* `runMutation_spec` -- every run of a mutation does it, the scheduler tick of the
  backups apart;
* `mutation_audited_iff` -- when a run of a mutation does it.
-/

namespace AtlasManager.AccessControl

open AtlasManager.Lib AtlasManager.EventHistory

section Runs

variable {ρ : Type}

/-! ## What a run has done -/

/-- The event that a call has recorded. -/
def recorded? : Prog.Event AdministrationCall (AdministrationCall.Answer ρ) (Thrown ρ) →
    Option AdministrativeEventInput
  | ⟨.record event, .ok _⟩ => some event
  | _ => none

/-- The events that have been recorded, the latest first. -/
def recordedEvents (log : AdministrationLog ρ) : List AdministrativeEventInput :=
  log.filterMap recorded?

/-- How an invocation of the operation has ended. -/
def invoked? : Prog.Event AdministrationCall (AdministrationCall.Answer ρ) (Thrown ρ) →
    Option (Except (Thrown ρ) ρ)
  | ⟨.invoke, answer⟩ => some answer
  | _ => none

def invocations (log : AdministrationLog ρ) : List (Except (Thrown ρ) ρ) := log.filterMap invoked?

/-- The event that an operation has been allowed. -/
def IsAllowed (operation : AdministrativeOperation) (event : AdministrativeEventInput) : Prop :=
  event.operation = .authorizeAdministrativeOperation ∧ event.status = .succeeded ∧
    event.details = some [("requestedOperation", .str operation.text),
      ("permission", .str operation.permission.text), ("decision", .str "allowed")]

/-- The event that an attempt has been started. -/
def IsStarted (operation : AdministrativeEventOperation) (event : AdministrativeEventInput) : Prop :=
  event.operation = operation ∧ event.status = .started

/-- Is an event the end of an attempt? -/
def isTerminal (operation : AdministrativeEventOperation) (event : AdministrativeEventInput) : Bool :=
  event.operation = operation && event.status ≠ .started

/-- What is asked of a run of a mutation. -/
structure Audited (operation : AdministrativeOperation) (event : AdministrativeEventOperation)
    (outcome : Except (Thrown ρ) ρ) (log : AdministrationLog ρ) : Prop where
  once : (invocations log).length ≤ 1
  announced : ∀ later answer earlier, log = later ++ ⟨.invoke, answer⟩ :: earlier →
    (∃ allowed ∈ recordedEvents earlier, IsAllowed operation allowed) ∧
      ∃ started ∈ recordedEvents earlier, IsStarted event started
  notFailed : ∀ result, .ok result ∈ invocations log →
    (∀ ended ∈ recordedEvents log, ended.operation = event → ended.status ≠ .failed) ∧
      (outcome = .ok result ∨ ∃ code, outcome = .error (.partialEffect code (some result)))
  oneEnd : ((recordedEvents log).filter (isTerminal event)).length ≤ 1

/-! ## Events and invocations -/

section Log

variable {log : AdministrationLog ρ}

theorem recordedEvents_record_ok {event : AdministrativeEventInput} {answer : Unit} :
    recordedEvents (ρ := ρ) (⟨.record event, .ok answer⟩ :: log) = event :: recordedEvents log := rfl

theorem recordedEvents_error {call : AdministrationCall} {error : Thrown ρ} :
    recordedEvents (ρ := ρ) (⟨call, .error error⟩ :: log) = recordedEvents log := by
  cases call <;> rfl

theorem recordedEvents_other {call : AdministrationCall}
    {answer : Except (Thrown ρ) (call.Answer ρ)} (h : ∀ event, call ≠ .record event) :
    recordedEvents (⟨call, answer⟩ :: log) = recordedEvents log := by
  cases call with
  | record event => exact absurd rfl (h event)
  | _ => rfl

theorem invocations_invoke {answer : Except (Thrown ρ) ρ} :
    invocations (⟨.invoke, answer⟩ :: log) = answer :: invocations log := rfl

theorem invocations_other {call : AdministrationCall}
    {answer : Except (Thrown ρ) (call.Answer ρ)} (h : call ≠ .invoke) :
    invocations (⟨call, answer⟩ :: log) = invocations log := by
  cases call with
  | invoke => exact absurd rfl h
  | _ => rfl

theorem mem_invocations {answer : Except (Thrown ρ) ρ} (h : ⟨.invoke, answer⟩ ∈ log) :
    answer ∈ invocations log :=
  List.mem_filterMap.mpr ⟨_, h, rfl⟩

end Log

/-! ## The check of an event -/

theorem createAdministrativeEventInput_eventRecord (attemptId : String) (occurredAt : Timestamp)
    (source : AdministrativeEventSource) (operation : AdministrativeEventOperation)
    (status : AdministrativeEventStatus) (details : JsValue) :
    createAdministrativeEventInput
        (eventRecord attemptId occurredAt source operation status details) = (do
      let source ← createSource (AdministrativeEventSource.toJs source)
      if Backup.isRunId attemptId then do
        let details ← createDetails operation status details
        return ⟨attemptId, occurredAt.text, source, operation, status, details⟩
      else .error .invalidAttemptId) := by
  have htarget : createTarget (.obj [("kind", .str "machine"), ("id", .str "atlas")]) = .ok () := by
    decide
  unfold createAdministrativeEventInput eventRecord
  simp only [requireRecord, ok_bind, assertFields, require, hasFieldOutside]
  simp [ok_bind, field, hasOwn, List.lookup, htarget]
  cases Backup.isRunId attemptId <;> rfl

/-- An event that passes the check has the operation and the status it was made with. -/
theorem eq_of_eventRecord {attemptId : String} {occurredAt : Timestamp}
    {source : AdministrativeEventSource} {operation : AdministrativeEventOperation}
    {status : AdministrativeEventStatus} {details : JsValue} {event : AdministrativeEventInput}
    (h : createAdministrativeEventInput
      (eventRecord attemptId occurredAt source operation status details) = .ok event) :
    event.operation = operation ∧ event.status = status ∧
      createDetails operation status details = .ok event.details := by
  rw [createAdministrativeEventInput_eventRecord] at h
  obtain ⟨source', -, h⟩ := exists_of_bind_ok h
  by_cases hid : Backup.isRunId attemptId = true
  · rw [if_pos hid] at h
    obtain ⟨details', hdetails, h⟩ := exists_of_bind_ok h
    obtain rfl := Except.ok.inj h
    exact ⟨rfl, rfl, hdetails⟩
  · rw [if_neg hid] at h
    cases h

theorem accepted_of_eventRecord {attemptId : String} {occurredAt : Timestamp}
    {source : AdministrativeEventSource} {operation : AdministrativeEventOperation}
    {status : AdministrativeEventStatus} {details : JsValue} {event : AdministrativeEventInput}
    (h : createAdministrativeEventInput
      (eventRecord attemptId occurredAt source operation status details) = .ok event) :
    Backup.isRunId attemptId = true ∧
      ∃ source', createSource (AdministrativeEventSource.toJs source) = .ok source' := by
  rw [createAdministrativeEventInput_eventRecord] at h
  obtain ⟨source', hsource, h⟩ := exists_of_bind_ok h
  by_cases hid : Backup.isRunId attemptId = true
  · exact ⟨hid, source', hsource⟩
  · rw [if_neg hid] at h
    cases h

theorem authorizationDetails_allowed (operation : AdministrativeOperation) :
    authorizationDetails .succeeded [("requestedOperation", .str operation.text),
      ("permission", .str operation.permission.text), ("decision", .str "allowed")] =
      .ok [("requestedOperation", .str operation.text),
        ("permission", .str operation.permission.text), ("decision", .str "allowed")] := by
  simp [authorizationDetails, require, assertAllowedKeys, hasFieldOutside, field, hasOwn, ok_bind,
    List.lookup]

/-! ## Before the operation -/

/-- Nothing has been invoked, and the recorder has not been asked for an end of the attempt. -/
structure Unended (event : AdministrativeEventOperation) (log : AdministrationLog ρ) : Prop where
  uninvoked : invocations log = []
  unasked : ∀ asked answer, ⟨.record asked, answer⟩ ∈ log → isTerminal event asked = false

/-- Besides, the operation has been allowed and the attempt has been started. -/
structure Attempted (operation : AdministrativeOperation) (event : AdministrativeEventOperation)
    (log : AdministrationLog ρ) : Prop extends Unended event log where
  allowed : ∃ recorded ∈ recordedEvents log, IsAllowed operation recorded
  started : ∃ recorded ∈ recordedEvents log, IsStarted event recorded

section Phases

variable {operation : AdministrativeOperation} {event : AdministrativeEventOperation}
  {log : AdministrationLog ρ}

theorem Unended.cons {call : AdministrationCall} {answer : Except (Thrown ρ) (call.Answer ρ)}
    (h : Unended event log) (hinvoke : call ≠ .invoke)
    (hrecord : ∀ asked, call = .record asked → isTerminal event asked = false) :
    Unended event (⟨call, answer⟩ :: log) where
  uninvoked := by rw [invocations_other hinvoke, h.uninvoked]
  unasked asked answer' hmem := by
    rw [List.mem_cons] at hmem
    rcases hmem with heq | hmem
    · exact hrecord asked (congrArg Prog.Event.call heq).symm
    · exact h.unasked asked answer' hmem

/-- An event that has been recorded has been asked for. -/
theorem asked_of_recorded {recorded : AdministrativeEventInput} (h : recorded ∈ recordedEvents log) :
    ∃ answer, ⟨.record recorded, answer⟩ ∈ log := by
  obtain ⟨⟨call, answer⟩, hmem, hrecorded⟩ := List.mem_filterMap.mp h
  cases call with
  | record asked =>
      cases answer with
      | ok answer =>
          obtain rfl := Option.some.inj hrecorded
          exact ⟨_, hmem⟩
      | error error => cases hrecorded
  | _ => cases hrecorded

theorem Unended.unended (h : Unended event log) :
    ∀ recorded ∈ recordedEvents log, isTerminal event recorded = false := by
  intro recorded hrecorded
  obtain ⟨answer, hmem⟩ := asked_of_recorded hrecorded
  exact h.unasked recorded answer hmem

/-- Nothing is asked of a run that has not invoked the operation. -/
theorem Unended.audited {outcome : Except (Thrown ρ) ρ} (h : Unended event log) :
    Audited operation event outcome log where
  once := by simp [h.uninvoked]
  announced later answer earlier hsplit := by
    have hmem : answer ∈ invocations log := mem_invocations (by simp [hsplit])
    simp [h.uninvoked] at hmem
  notFailed result hresult := by simp [h.uninvoked] at hresult
  oneEnd := by
    rw [List.filter_eq_nil_iff.mpr fun recorded hrecorded => by simp [h.unended recorded hrecorded]]
    simp

/-- What is asked of a run that has invoked the operation once, and then has done `later`. -/
theorem Attempted.audited {outcome : Except (Thrown ρ) ρ} {later : AdministrationLog ρ}
    {answer : Except (Thrown ρ) ρ} (h : Attempted operation event log)
    (hlater : invocations later = [])
    (hend : ((recordedEvents later).filter (isTerminal event)).length ≤ 1)
    (hresult : ∀ result, answer = .ok result →
      (∀ ended ∈ recordedEvents later, ended.operation = event → ended.status ≠ .failed) ∧
        (outcome = .ok result ∨ ∃ code, outcome = .error (.partialEffect code (some result)))) :
    Audited operation event outcome (later ++ ⟨.invoke, answer⟩ :: log) := by
  have hinvocations : invocations (later ++ ⟨.invoke, answer⟩ :: log) = [answer] := by
    have happend : invocations (later ++ ⟨.invoke, answer⟩ :: log) =
        invocations later ++ invocations (⟨.invoke, answer⟩ :: log) := List.filterMap_append
    rw [happend, hlater, invocations_invoke, h.uninvoked, List.nil_append]
  have hrecorded : recordedEvents (later ++ ⟨.invoke, answer⟩ :: log) =
      recordedEvents later ++ recordedEvents log := by
    have happend : recordedEvents (later ++ ⟨.invoke, answer⟩ :: log) =
        recordedEvents later ++ recordedEvents (⟨.invoke, answer⟩ :: log) := List.filterMap_append
    rw [happend, recordedEvents_other (by simp)]
  refine ⟨by simp [hinvocations], fun later' answer' earlier hsplit => ?_, fun result hmem => ?_, ?_⟩
  · -- no other call is an invocation, so that what comes before it is `log`
    have hearlier : earlier = log := by
      rw [List.append_eq_append_iff] at hsplit
      rcases hsplit with ⟨more, rfl, hmore⟩ | ⟨more, rfl, hmore⟩
      · cases more with
        | nil =>
            rw [List.nil_append, List.cons.injEq] at hmore
            exact hmore.2.symm
        | cons first more =>
            rw [List.cons_append, List.cons.injEq] at hmore
            have hmem : answer' ∈ invocations log := mem_invocations (by simp [hmore.2])
            simp [h.uninvoked] at hmem
      · cases more with
        | nil =>
            rw [List.nil_append, List.cons.injEq] at hmore
            exact hmore.2
        | cons first more =>
            rw [List.cons_append, List.cons.injEq] at hmore
            have hmem : answer' ∈ invocations (later' ++ first :: more) :=
              mem_invocations (by simp [hmore.1])
            simp [hlater] at hmem
    rw [hearlier]
    exact ⟨h.allowed, h.started⟩
  · rw [hinvocations, List.mem_singleton] at hmem
    obtain ⟨hnotFailed, houtcome⟩ := hresult result hmem.symm
    refine ⟨fun ended hended hoperation => ?_, houtcome⟩
    rw [hrecorded, List.mem_append] at hended
    rcases hended with hended | hended
    · exact hnotFailed ended hended hoperation
    · have hunended := h.unended ended hended
      simp only [isTerminal, hoperation, decide_true, Bool.true_and, decide_eq_false_iff_not,
        ne_eq, not_not] at hunended
      rw [hunended]
      decide
  · have hnone : (recordedEvents log).filter (isTerminal event) = [] :=
      List.filter_eq_nil_iff.mpr fun recorded hmem => by simp [h.unended recorded hmem]
    rw [hrecorded, List.filter_append, hnone, List.append_nil]
    exact hend

/-! ## The programs of an attempt -/

/-- Ports may answer anything or throw. -/
def anything (call : AdministrationCall) (_ : Except (Thrown ρ) (call.Answer ρ)) : Prop := True

theorem checked_spec {α : Type} {check : Check α} {Q : Except (Thrown ρ) α → AdministrationLog ρ → Prop}
    (hok : ∀ value, check = .ok value → Q (.ok value) log)
    (herror : ∀ code, check = .error code → Q (.error (.eventValidation code)) log) :
    Prog.Spec (Prog.logged anything) (fun _ => True) (checked check) Q log := by
  cases hcheck : check with
  | ok value => exact hok value hcheck
  | error code => exact herror code hcheck

theorem recordAuthorization_spec (hevent : event ≠ .authorizeAdministrativeOperation)
    (h : Unended event log) (reasonCode : Option String) (occurredAt : Timestamp)
    (source : AdministrativeEventSource) :
    Prog.Spec (Prog.logged anything) (fun _ => True)
      (recordAuthorization (ρ := ρ) operation reasonCode occurredAt source)
      (fun o log' => Unended event log' ∧
        (o = .ok () → reasonCode = none → ∃ recorded ∈ recordedEvents log', IsAllowed operation recorded))
      log := by
  rw [recordAuthorization, Prog.spec_bind, ask, Prog.spec_perform]
  rintro attemptId log₁ ⟨-, rfl⟩
  have h₁ : Unended event (⟨.generateAttemptId, attemptId⟩ :: log) := h.cons (by simp) (by simp)
  refine ⟨trivial, ?_⟩
  cases attemptId with
  | error error => exact ⟨h₁, fun hok => (by cases hok)⟩
  | ok attemptId =>
      dsimp only
      rw [Prog.spec_bind, Prog.spec_attempt, Prog.spec_bind]
      refine checked_spec (fun recorded hrecorded => ?_)
        fun code _ => ⟨h₁, fun hok => (by cases hok)⟩
      dsimp only
      rw [ask, Prog.spec_perform]
      rintro answer log₂ ⟨-, rfl⟩
      refine ⟨trivial, ?_⟩
      obtain ⟨hoperation, hstatus, hdetails⟩ := eq_of_eventRecord hrecorded
      have h₂ : Unended event (⟨.record recorded, answer⟩ :: ⟨.generateAttemptId, .ok attemptId⟩ :: log) := by
        refine h₁.cons (by simp) fun other hother => ?_
        obtain rfl := AdministrationCall.record.inj hother
        simp [isTerminal, hoperation, hevent.symm]
      cases answer with
      | error error => exact ⟨h₂, fun hok => (by cases hok)⟩
      | ok answer =>
          refine ⟨h₂, fun _ hreason => ⟨recorded, by rw [recordedEvents_record_ok]; simp, hoperation, ?_, ?_⟩⟩
          · rw [hstatus, hreason]
            rfl
          · subst hreason
            simp only [Option.isNone_none, if_true, Option.toList_none, List.map_nil, List.append_nil]
              at hdetails
            rw [createDetails] at hdetails
            · dsimp only [requireRecord] at hdetails
              rw [ok_bind, authorizationDetails_allowed] at hdetails
              exact (Except.ok.inj hdetails).symm
            · simp

theorem authorize_spec (h : Unended event log) (principal : AdministrativePrincipal)
    (evaluatedAt : Timestamp) :
    Prog.Spec (Prog.logged anything) (fun _ => True)
      (authorize (ρ := ρ) principal operation evaluatedAt)
      (fun o log' => Unended event log' ∧
        ∀ decision, o = .ok decision → decision.operation = operation) log := by
  rw [authorize, Prog.spec_bind, Prog.spec_attempt, ask, Prog.spec_perform]
  rintro assignment log₁ ⟨-, rfl⟩
  have h₁ : Unended event (⟨.readRoles principal, assignment⟩ :: log) := h.cons (by simp) (by simp)
  refine ⟨trivial, ?_⟩
  have hdecision : ∀ reason, Prog.Spec (Prog.logged anything) (fun _ => True)
      (pure { principal, operation, evaluatedAt, reason } :
        AdministrationProg ρ AdministrativeAuthorizationDecision)
      (fun o log' => Unended event log' ∧
        ∀ decision, o = .ok decision → decision.operation = operation)
      (⟨.readRoles principal, assignment⟩ :: log) := by
    intro reason
    refine ⟨h₁, fun decision hdecision => ?_⟩
    obtain rfl := Except.ok.inj hdecision
    rfl
  cases assignment with
  | error error => exact hdecision _
  | ok assignment =>
      cases assignment with
      | unavailable => exact hdecision _
      | unknownPrincipal => exact hdecision _
      | assigned roles =>
          dsimp only
          by_cases hroles : roles.any (roleHasAdministrativePermission · operation.permission) = true
          · rw [if_pos hroles]
            exact hdecision _
          · rw [if_neg hroles]
            exact hdecision _

/-- How `run` ends when the operation has ended. -/
def runOutcome {α : Type} (operation : AdministrativeOperation) :
    Except (Thrown ρ) α → Except (Thrown ρ) α
  | .ok result => .ok result
  | .error error => .error (rethrown operation error)

/-- A run is over before the operation, or the operation is allowed. -/
theorem run_spec {α : Type} {Q : Except (Thrown ρ) α → AdministrationLog ρ → Prop}
    {invoke : Timestamp → AdministrativeEventSource → AdministrationProg ρ α}
    (hevent : event ≠ .authorizeAdministrativeOperation) (h : Unended event log)
    (hbefore : ∀ error log', Unended event log' → Q (.error error) log')
    (hinvoke : ∀ occurredAt source log', Unended event log' →
      (∃ recorded ∈ recordedEvents log', IsAllowed operation recorded) →
      Prog.Spec (Prog.logged anything) (fun _ => True) (invoke occurredAt source)
        (fun o log'' => Q (runOutcome operation o) log'') log') :
    Prog.Spec (Prog.logged anything) (fun _ => True) (run operation invoke) Q log := by
  have hrefuse : ∀ evaluatedAt reasonCode code log', Unended event log' →
      Prog.Spec (Prog.logged anything) (fun _ => True)
        (refuseAuthentication (α := α) operation evaluatedAt reasonCode code) Q log' := by
    intro evaluatedAt reasonCode code log' h'
    rw [refuseAuthentication, Prog.spec_bind, Prog.spec_attempt]
    refine (recordAuthorization_spec hevent h' _ _ _).mono (fun _ h => h) fun o log'' ho => ?_
    cases o with
    | ok answer => exact hbefore _ _ ho.1
    | error error => exact hbefore _ _ ho.1
  rw [run, Prog.spec_bind, ask, Prog.spec_perform]
  rintro evaluatedAt log₁ ⟨-, rfl⟩
  have h₁ : Unended event (⟨.now, evaluatedAt⟩ :: log) := h.cons (by simp) (by simp)
  refine ⟨trivial, ?_⟩
  cases evaluatedAt with
  | error error => exact hbefore _ _ h₁
  | ok evaluatedAt =>
      dsimp only
      rw [Prog.spec_bind, Prog.spec_attempt, ask, Prog.spec_perform]
      rintro authentication log₂ ⟨-, rfl⟩
      have h₂ : Unended event (⟨.authenticate, authentication⟩ :: ⟨.now, .ok evaluatedAt⟩ :: log) :=
        h₁.cons (by simp) (by simp)
      refine ⟨trivial, ?_⟩
      cases authentication with
      | error error => exact hrefuse _ _ _ _ h₂
      | ok authentication =>
          cases authentication with
          | unavailable => exact hrefuse _ _ _ _ h₂
          | unauthenticated reason => exact hrefuse _ _ _ _ h₂
          | authenticated principal =>
              dsimp only
              rw [runAs, Prog.spec_bind, Prog.spec_attempt]
              refine (authorize_spec h₂ principal evaluatedAt).mono (fun _ h => h) ?_
              rintro (error | decision) log₃ ⟨h₃, hoperation⟩
              · exact hbefore _ _ h₃
              · obtain rfl := hoperation decision rfl
                dsimp only
                rw [Prog.spec_bind, Prog.spec_attempt]
                refine (recordAuthorization_spec hevent h₃ _ _ _).mono (fun _ h => h) ?_
                rintro (error | answer) log₄ ⟨h₄, hallowed⟩
                · exact hbefore _ _ h₄
                · dsimp only
                  cases hreason : decision.reason with
                  | some reason => cases reason <;> exact hbefore _ _ h₄
                  | none =>
                      dsimp only
                      rw [Prog.spec_bind, Prog.spec_attempt]
                      refine (hinvoke evaluatedAt _ log₄ h₄ (hallowed rfl (by rw [hreason]; rfl))).mono
                        (fun _ h => h) fun o log₅ ho => ?_
                      cases o with
                      | ok result => exact ho
                      | error error => exact ho

/-- The check of the events of an attempt refuses at most their details. -/
def AdministrativeAuditAttempt.Accepted (attempt : AdministrativeAuditAttempt) : Prop :=
  Backup.isRunId attempt.attemptId = true ∧
    ∃ source, createSource (AdministrativeEventSource.toJs attempt.source) = .ok source

theorem begin_spec {source : AdministrativeEventSource} {details : JsValue} {occurredAt : Timestamp}
    (h : Unended event log) (hallowed : ∃ recorded ∈ recordedEvents log, IsAllowed operation recorded) :
    Prog.Spec (Prog.logged anything) (fun _ => True)
      (begin (ρ := ρ) event details occurredAt source)
      (fun o log' => Unended event log' ∧ ∀ attempt, o = .ok attempt →
        Attempted operation event log' ∧ attempt.operation = event ∧ attempt.Accepted) log := by
  rw [begin, Prog.spec_bind, ask, Prog.spec_perform]
  rintro attemptId log₁ ⟨-, rfl⟩
  have h₁ : Unended event (⟨.generateAttemptId, attemptId⟩ :: log) := h.cons (by simp) (by simp)
  refine ⟨trivial, ?_⟩
  cases attemptId with
  | error error => exact ⟨h₁, fun _ hok => (by cases hok)⟩
  | ok attemptId =>
      dsimp only
      rw [Prog.spec_bind]
      refine checked_spec (fun started hstarted => ?_) fun code _ => ⟨h₁, fun _ hok => (by cases hok)⟩
      dsimp only
      rw [Prog.spec_bind, Prog.spec_attempt, ask, Prog.spec_perform]
      rintro answer log₂ ⟨-, rfl⟩
      refine ⟨trivial, ?_⟩
      obtain ⟨hoperation, hstatus, -⟩ := eq_of_eventRecord hstarted
      have h₂ : Unended event (⟨.record started, answer⟩ :: ⟨.generateAttemptId, .ok attemptId⟩ :: log) := by
        refine h₁.cons (by simp) fun asked hasked => ?_
        obtain rfl := AdministrationCall.record.inj hasked
        simp [isTerminal, hstatus]
      cases answer with
      | error error => exact ⟨h₂, fun _ hok => (by cases hok)⟩
      | ok answer =>
          refine ⟨h₂, fun attempt hattempt => ?_⟩
          obtain rfl := Except.ok.inj hattempt
          obtain ⟨recorded, hrecorded, hallowed⟩ := hallowed
          refine ⟨⟨h₂, ⟨recorded, ?_, hallowed⟩, ⟨started, ?_, hoperation, hstatus⟩⟩, rfl,
            accepted_of_eventRecord hstarted⟩
          · rw [recordedEvents_record_ok, recordedEvents_other (by simp)]
            exact List.mem_cons_of_mem _ hrecorded
          · rw [recordedEvents_record_ok]
            exact List.mem_cons_self

/-- The recorder has been asked for an event with this status, and has answered. -/
def Asked (attempt : AdministrativeAuditAttempt) (status : AdministrativeEventStatus)
    (log : AdministrationLog ρ) (o : Except (Thrown ρ) Unit) (log' : AdministrationLog ρ) : Prop :=
  ∃ ended, ended.operation = attempt.operation ∧ ended.status = status ∧
    ((o = .ok () ∧ log' = ⟨.record ended, .ok ()⟩ :: log) ∨
      ∃ error, o = .error .auditTrail ∧ log' = ⟨.record ended, .error error⟩ :: log)

/-- The end of an attempt is refused by the check, or the recorder is asked to record it. -/
theorem complete_spec (attempt : AdministrativeAuditAttempt) (status : AdministrativeEventStatus)
    (details : JsValue) :
    Prog.Spec (Prog.logged anything) (fun _ => True) (complete (ρ := ρ) attempt status details)
      (fun o log' => (∃ code, createAdministrativeEventInput (eventRecord attempt.attemptId
          attempt.occurredAt attempt.source attempt.operation status details) = .error code ∧
            o = .error (.eventValidation code) ∧ log' = log) ∨ Asked attempt status log o log') log := by
  rw [complete, Prog.spec_bind]
  refine checked_spec (fun ended hended => ?_) fun code hcode => .inl ⟨code, hcode, rfl, rfl⟩
  dsimp only
  rw [Prog.spec_bind, Prog.spec_attempt, ask, Prog.spec_perform]
  rintro answer log₁ ⟨-, rfl⟩
  refine ⟨trivial, ?_⟩
  obtain ⟨hoperation, hstatus, -⟩ := eq_of_eventRecord hended
  cases answer with
  | ok answer => exact .inr ⟨ended, hoperation, hstatus, .inl ⟨rfl, rfl⟩⟩
  | error error => exact .inr ⟨ended, hoperation, hstatus, .inr ⟨error, rfl, rfl⟩⟩

/-- With details that pass their check the recorder is asked. -/
theorem complete_asks {attempt : AdministrativeAuditAttempt} {status : AdministrativeEventStatus}
    {details : JsValue} {checkedDetails : Option Fields} (haccepted : attempt.Accepted)
    (hdetails : createDetails attempt.operation status details = .ok checkedDetails) :
    Prog.Spec (Prog.logged anything) (fun _ => True) (complete (ρ := ρ) attempt status details)
      (Asked attempt status log) log := by
  obtain ⟨hid, source, hsource⟩ := haccepted
  refine (complete_spec attempt status details).mono (fun _ h => h) fun o log' ho => ?_
  refine ho.resolve_left ?_
  rintro ⟨code, hcode, -⟩
  rw [createAdministrativeEventInput_eventRecord, hsource, ok_bind, if_pos hid, hdetails] at hcode
  cases hcode

/-! ## Mutations -/

/-- The operation and the event of its success. -/
theorem invokeAudited_spec (attempt : AdministrativeAuditAttempt) (details : JsValue)
    (code : PartialEffectCode) :
    Prog.Spec (Prog.logged anything) (fun _ => True) (invokeAudited (ρ := ρ) attempt details code)
      (fun o log' => (∃ error, o = .error error ∧ log' = ⟨.invoke, .error error⟩ :: log) ∨
        ∃ result later, log' = later ++ ⟨.invoke, .ok result⟩ :: log ∧
          (later = [] ∨ ∃ ended answer, ended.operation = attempt.operation ∧
            ended.status = .succeeded ∧ later = [⟨.record ended, answer⟩]) ∧
          (o = .ok result ∨ o = .error (.partialEffect code (some result)))) log := by
  rw [invokeAudited, Prog.spec_bind, ask, Prog.spec_perform]
  rintro answer log₁ ⟨-, rfl⟩
  refine ⟨trivial, ?_⟩
  cases answer with
  | error error => exact .inl ⟨error, rfl, rfl⟩
  | ok result =>
      dsimp only
      rw [Prog.spec_bind, Prog.spec_attempt]
      refine (complete_spec attempt .succeeded details).mono (fun _ h => h) ?_
      rintro o log₂ (⟨code', -, rfl, rfl⟩ | ⟨ended, hoperation, hstatus, ⟨rfl, rfl⟩ | ⟨error, rfl, rfl⟩⟩)
      · exact .inr ⟨result, [], rfl, .inl rfl, .inr rfl⟩
      · exact .inr ⟨result, [_], rfl, .inr ⟨ended, _, hoperation, hstatus, rfl⟩, .inl rfl⟩
      · exact .inr ⟨result, [_], rfl, .inr ⟨ended, _, hoperation, hstatus, rfl⟩, .inr rfl⟩

/-- One event at most has been recorded after the operation. -/
theorem Attempted.audited_ended {outcome : Except (Thrown ρ) ρ} {answer : Except (Thrown ρ) ρ}
    (h : Attempted operation event log) (later : AdministrationLog ρ) (status : AdministrativeEventStatus)
    (hlater : later = [] ∨ ∃ ended answer', ended.status = status ∧ later = [⟨.record ended, answer'⟩])
    (hresult : ∀ result, answer = .ok result → status ≠ .failed ∧
      (outcome = .ok result ∨ ∃ code, outcome = .error (.partialEffect code (some result)))) :
    Audited operation event outcome (later ++ ⟨.invoke, answer⟩ :: log) := by
  rcases hlater with rfl | ⟨ended, answer', hstatus, rfl⟩
  · exact h.audited rfl (by simp [recordedEvents]) fun result hok =>
      ⟨by simp [recordedEvents], (hresult result hok).2⟩
  · have hevents : ∀ recorded ∈ recordedEvents (ρ := ρ) [⟨.record ended, answer'⟩], recorded = ended := by
      intro recorded hrecorded
      cases answer' with
      | ok answer' => simpa [recordedEvents, recorded?] using hrecorded
      | error error => simp [recordedEvents, recorded?] at hrecorded
    have hlength : (recordedEvents (ρ := ρ) [⟨.record ended, answer'⟩]).length ≤ 1 := by
      cases answer' with
      | ok answer' => exact le_refl 1
      | error error => exact Nat.zero_le 1
    refine h.audited rfl ((List.length_filter_le _ _).trans hlength) fun result hok => ?_
    obtain ⟨hnotFailed, houtcome⟩ := hresult result hok
    refine ⟨fun recorded hrecorded _ => ?_, houtcome⟩
    rw [hevents recorded hrecorded, hstatus]
    exact hnotFailed

/-- An attempt whose operation has thrown. -/
theorem auditFailure_spec (attempt : AdministrativeAuditAttempt) (details : JsValue) (error : Thrown ρ)
    (h : Attempted operation event log) :
    Prog.Spec (Prog.logged anything) (fun _ => True) (auditFailure attempt details error)
      (fun o log' => Audited operation event (runOutcome operation o) log')
      (⟨.invoke, .error error⟩ :: log) := by
  rw [auditFailure, Prog.spec_bind, Prog.spec_attempt]
  refine (complete_spec attempt .failed details).mono (fun _ h => h) ?_
  rintro o log₁ (⟨code, -, rfl, rfl⟩ | ⟨ended, -, hstatus, ⟨rfl, rfl⟩ | ⟨error', rfl, rfl⟩⟩)
  · exact h.audited_ended [] .failed (.inl rfl) fun result hok =>
      (by cases hok)
  · exact h.audited_ended [_] .failed (.inr ⟨ended, _, hstatus, rfl⟩) fun result hok =>
      (by cases hok)
  · exact h.audited_ended [_] .failed (.inr ⟨ended, _, hstatus, rfl⟩) fun result hok =>
      (by cases hok)

/-- **Every run of a mutation is audited.** -/
theorem runMutation_spec (operation : AdministrativeOperation) (event : AdministrativeEventOperation)
    (hevent : event ≠ .authorizeAdministrativeOperation) (started succeeded failed : JsValue)
    (code : PartialEffectCode) :
    Prog.Spec (Prog.logged anything) (fun _ => True)
      (runMutation (ρ := ρ) operation event started succeeded failed code)
      (Audited operation event) [] := by
  have hnothing : Unended (ρ := ρ) event [] := ⟨rfl, by simp⟩
  rw [runMutation]
  refine run_spec hevent hnothing (fun _ _ h => h.audited) fun occurredAt source log₁ h₁ hallowed => ?_
  rw [Prog.spec_bind]
  refine (begin_spec h₁ hallowed).mono (fun _ h => h) ?_
  rintro (error | attempt) log₂ ⟨h₂, hattempt⟩
  · exact h₂.audited
  · obtain ⟨h₃, -, -⟩ := hattempt attempt rfl
    dsimp only
    rw [Prog.spec_bind, Prog.spec_attempt]
    refine (invokeAudited_spec attempt succeeded code).mono (fun _ h => h) ?_
    rintro o log₃ (⟨error, rfl, rfl⟩ | ⟨result, later, rfl, hlater, houtcome⟩)
    · have hfailure := auditFailure_spec attempt failed error h₃
      cases error with
      | partialEffect code' result =>
          exact h₃.audited_ended [] .failed (.inl rfl) fun result hok =>
            (by cases hok)
      | _ => exact hfailure
    · have hend : later = [] ∨ ∃ ended answer', ended.status = .succeeded ∧
          later = [⟨.record ended, answer'⟩] := by
        rcases hlater with hnil | ⟨ended, answer', -, hstatus, hlater⟩
        · exact .inl hnil
        · exact .inr ⟨ended, answer', hstatus, hlater⟩
      rcases houtcome with rfl | rfl
      · exact h₃.audited_ended later .succeeded hend fun result' hok => by
          obtain rfl := Except.ok.inj hok
          exact ⟨by decide, .inl rfl⟩
      · exact h₃.audited_ended later .succeeded hend fun result' hok => by
          obtain rfl := Except.ok.inj hok
          exact ⟨by decide, .inr ⟨code, rfl⟩⟩

/-! ## The scheduler tick of the backups -/

/-- The recorder has thrown when it was asked for the event of a success. -/
def RefusesSuccess (event : AdministrativeEventOperation) (log : AdministrationLog ρ) : Prop :=
  ∃ asked error, ⟨.record asked, .error error⟩ ∈ log ∧ asked.operation = event ∧
    asked.status = .succeeded

theorem Unended.not_refusesSuccess (h : Unended event log) : ¬ RefusesSuccess event log := by
  rintro ⟨asked, error, hmem, hoperation, hstatus⟩
  have hterminal := h.unasked asked _ hmem
  simp [isTerminal, hoperation, hstatus] at hterminal

theorem refusesSuccess_cons {call : AdministrationCall} {answer : Except (Thrown ρ) (call.Answer ρ)}
    (h : ∀ asked error, (⟨call, answer⟩ : Prog.Event _ _ _) = ⟨.record asked, .error error⟩ →
      asked.status ≠ .succeeded) :
    RefusesSuccess event (⟨call, answer⟩ :: log) ↔ RefusesSuccess event log := by
  constructor
  · rintro ⟨asked, error, hmem, hoperation, hstatus⟩
    rw [List.mem_cons] at hmem
    rcases hmem with heq | hmem
    · exact absurd hstatus (h asked error heq.symm)
    · exact ⟨asked, error, hmem, hoperation, hstatus⟩
  · rintro ⟨asked, error, hmem, hoperation, hstatus⟩
    exact ⟨asked, error, List.mem_cons_of_mem _ hmem, hoperation, hstatus⟩

theorem runBackupSchedulerTick_spec :
    Prog.Spec (Prog.logged anything) (fun _ => True) (runBackupSchedulerTick (ρ := ρ))
      (fun o log => Audited .runBackupSchedulerTick .runBackupSchedulerTick o log ↔
        ¬ RefusesSuccess .runBackupSchedulerTick log) [] := by
  have hnothing : Unended (ρ := ρ) .runBackupSchedulerTick [] := ⟨rfl, by simp⟩
  -- before the operation has been invoked there is nothing to refuse
  have hbefore : ∀ (outcome : Except (Thrown ρ) ρ) (log : AdministrationLog ρ),
      Unended .runBackupSchedulerTick log →
      (Audited .runBackupSchedulerTick .runBackupSchedulerTick outcome log ↔
        ¬ RefusesSuccess .runBackupSchedulerTick log) := fun outcome log h =>
    iff_of_true h.audited h.not_refusesSuccess
  rw [runBackupSchedulerTick]
  refine run_spec (by decide) hnothing (fun _ _ => hbefore _ _) fun occurredAt source log₁ h₁ hallowed => ?_
  rw [Prog.spec_bind]
  refine (begin_spec h₁ hallowed).mono (fun _ h => h) ?_
  rintro (error | attempt) log₂ ⟨h₂, hattempt⟩
  · exact hbefore _ _ h₂
  · obtain ⟨h₃, hoperation, haccepted⟩ := hattempt attempt rfl
    dsimp only
    rw [Prog.spec_bind, Prog.spec_attempt, Prog.spec_bind, ask, Prog.spec_perform]
    rintro answer log₃ ⟨-, rfl⟩
    refine ⟨trivial, ?_⟩
    have hrefuses : ∀ answer : Except (Thrown ρ) ρ, ¬ RefusesSuccess .runBackupSchedulerTick
        (⟨.invoke, answer⟩ :: log₂) := by
      intro answer
      rw [refusesSuccess_cons (by simp)]
      exact h₃.not_refusesSuccess
    have hfailed : createDetails attempt.operation .failed
        (.obj [("failureCode", .str "backup_operation_failed")]) =
          .ok (some [("failureCode", .str "backup_operation_failed")]) := by
      rw [hoperation]
      decide
    have hsucceeded : createDetails attempt.operation .succeeded (.obj [("outcome", .str "succeeded")]) =
        .ok (some [("outcome", .str "succeeded")]) := by
      rw [hoperation]
      decide
    cases answer with
    | error error =>
        dsimp only
        rw [auditFailure, Prog.spec_bind, Prog.spec_attempt]
        refine (complete_asks haccepted hfailed).mono (fun _ h => h) ?_
        rintro o log₄ ⟨ended, -, hstatus, hanswer⟩
        -- whatever the recorder answers, nothing is asked
        have hended : ∀ answer outcome,
            Audited .runBackupSchedulerTick .runBackupSchedulerTick outcome
              (⟨.record ended, answer⟩ :: ⟨.invoke, .error error⟩ :: log₂) ↔
              ¬ RefusesSuccess .runBackupSchedulerTick
                (⟨.record ended, answer⟩ :: ⟨.invoke, .error error⟩ :: log₂) := by
          intro answer outcome
          rw [refusesSuccess_cons fun asked error heq => ?_]
          · exact iff_of_true (h₃.audited_ended [_] _ (.inr ⟨ended, _, hstatus, rfl⟩)
              fun result hok => (by cases hok)) (hrefuses _)
          · obtain rfl := AdministrationCall.record.inj (congrArg Prog.Event.call heq)
            rw [hstatus]
            decide
        rcases hanswer with ⟨rfl, rfl⟩ | ⟨error', rfl, rfl⟩
        · exact hended _ _
        · exact hended _ _
    | ok result =>
        dsimp only
        rw [Prog.spec_bind]
        refine (complete_asks haccepted hsucceeded).mono (fun _ h => h) ?_
        rintro o log₄ ⟨ended, hended, hstatus, ⟨rfl, rfl⟩ | ⟨error, rfl, rfl⟩⟩
        · -- the success has been recorded
          dsimp only
          refine iff_of_true (h₃.audited_ended [_] _ (.inr ⟨ended, _, hstatus, rfl⟩)
            fun result' hok => ?_) ?_
          · obtain rfl := Except.ok.inj hok
            exact ⟨by decide, .inl rfl⟩
          · rw [refusesSuccess_cons (by simp)]
            exact hrefuses _
        · -- it has been refused, so that the result is lost
          dsimp only
          rw [auditFailure, Prog.spec_bind, Prog.spec_attempt]
          refine (complete_asks haccepted hfailed).mono (fun _ h => h) ?_
          rintro o log₅ ⟨failed, -, -, hanswer⟩
          have hlost : ∀ answer, (Audited .runBackupSchedulerTick .runBackupSchedulerTick
              (.error .auditTrail) (⟨.record failed, answer⟩ :: ⟨.record ended, .error error⟩ ::
                ⟨.invoke, .ok result⟩ :: log₂) ↔
              ¬ RefusesSuccess .runBackupSchedulerTick (⟨.record failed, answer⟩ ::
                ⟨.record ended, .error error⟩ :: ⟨.invoke, .ok result⟩ :: log₂)) := by
            intro answer
            refine iff_of_false (fun haudited => ?_) (not_not.mpr ⟨ended, error, by simp, ?_, hstatus⟩)
            · have hresult := (haudited.notFailed result (mem_invocations (by simp))).2
              simp at hresult
            · rw [hended, hoperation]
          rcases hanswer with ⟨rfl, rfl⟩ | ⟨error', rfl, rfl⟩
          · exact hlost _
          · exact hlost _

end Phases

/-! ## All mutations -/

theorem ProtectedMutation.event_ne (mutation : ProtectedMutation) :
    mutation.event ≠ .authorizeAdministrativeOperation := by
  cases mutation with
  | service mutation serviceId => cases mutation <;> exact nofun
  | machineSchedule mutation => cases mutation <;> exact nofun
  | backup mutation targetId => cases mutation <;> exact nofun
  | backupSchedulerTick => exact nofun
  | eventHistory mutation details => cases mutation <;> exact nofun

/-- **When a run of a mutation is audited**: always, but for a scheduler tick whose success
the recorder refuses. -/
theorem mutation_audited_iff (mutation : ProtectedMutation) (outcome : Except (Thrown ρ) ρ)
    (log : AdministrationLog ρ)
    (hexec : Prog.Exec (Prog.logged anything) (mutation.execute (ρ := ρ)) [] outcome log) :
    Audited mutation.operation mutation.event outcome log ↔
      ¬ (mutation = .backupSchedulerTick ∧ RefusesSuccess mutation.event log) := by
  have hevent := mutation.event_ne
  cases mutation with
  | backupSchedulerTick =>
      have htick := runBackupSchedulerTick_spec.exec hexec
      simp only [true_and]
      exact htick
  | service mutation serviceId =>
      exact iff_of_true ((runMutation_spec _ _ hevent _ _ _ _).exec hexec) (by simp)
  | machineSchedule mutation =>
      exact iff_of_true ((runMutation_spec _ _ hevent _ _ _ _).exec hexec) (by simp)
  | backup mutation targetId =>
      exact iff_of_true ((runMutation_spec _ _ hevent _ _ _ _).exec hexec) (by simp)
  | eventHistory mutation details =>
      exact iff_of_true ((runMutation_spec _ _ hevent _ _ _ _).exec hexec) (by simp)

end Runs

/-! ## A recorder that refuses successes -/

section Refusing

def operator : AdministrativePrincipal where
  principalId := "0b1b6c1e-3c52-4d7c-9f0a-5e8a3f6f1c11"
  kind := .human
  canonical := by decide

/-- An administrator asks, and everything works but the record of a success. -/
def refusingSuccess : (call : AdministrationCall) → Except (Thrown Unit) (call.Answer Unit)
  | .now => .ok ⟨0, Timestamp.zero_inRange⟩
  | .authenticate => .ok (.authenticated operator)
  | .readRoles _ => .ok (.assigned [.administrator])
  | .generateAttemptId => .ok "6f1c110b-3c52-4d7c-9f0a-5e8a3f6f1c11"
  | .record event =>
    if event.operation ≠ .authorizeAdministrativeOperation ∧ event.status = .succeeded then
      .error (.error "FileEventHistoryError" "event_history_capacity_exceeded")
    else .ok ()
  | .invoke => .ok ()

/-- The run of a mutation under these answers. -/
def refusingRun (mutation : ProtectedMutation) : Except (Thrown Unit) Unit × AdministrationLog Unit :=
  Prog.run (fun log call => (refusingSuccess call, ⟨call, refusingSuccess call⟩ :: log))
    mutation.execute []

theorem exec_refusingRun (mutation : ProtectedMutation) :
    Prog.Exec (Prog.logged anything) mutation.execute [] (refusingRun mutation).1
      (refusingRun mutation).2 :=
  Prog.exec_run (fun _ _ => ⟨trivial, rfl⟩) _ _

/-- The start of a service is audited: its caller is told that the success is not recorded. -/
theorem mutation_audited_iff_service :
    (refusingRun (.service .startRegisteredService "docs")).1 =
        .error (.partialEffect .auditFailedAfterServiceOperation (some ())) ∧
      Audited .startRegisteredService .startRegisteredService
        (refusingRun (.service .startRegisteredService "docs")).1
        (refusingRun (.service .startRegisteredService "docs")).2 :=
  ⟨by decide +kernel, (mutation_audited_iff (.service .startRegisteredService "docs") _ _
    (exec_refusingRun _)).mpr (by simp)⟩

/-- The tick has a result, and it is recorded that it has failed. -/
theorem not_audited_tick :
    ∃ outcome log, Prog.Exec (Prog.logged anything)
        (ProtectedMutation.backupSchedulerTick.execute (ρ := Unit)) [] outcome log ∧
      .ok () ∈ invocations log ∧
      (∃ ended ∈ recordedEvents log, ended.operation = .runBackupSchedulerTick ∧ ended.status = .failed) ∧
      ¬ Audited .runBackupSchedulerTick .runBackupSchedulerTick outcome log := by
  have hrun : .ok () ∈ invocations (refusingRun .backupSchedulerTick).2 ∧
      ∃ ended ∈ recordedEvents (refusingRun .backupSchedulerTick).2,
        ended.operation = .runBackupSchedulerTick ∧ ended.status = .failed := by
    decide +kernel
  obtain ⟨hinvoked, hfailed⟩ := hrun
  refine ⟨_, _, exec_refusingRun _, hinvoked, hfailed, fun haudited => ?_⟩
  obtain ⟨ended, hended, hoperation, hstatus⟩ := hfailed
  exact (haudited.notFailed () hinvoked).1 ended hended hoperation hstatus

end Refusing

end AtlasManager.AccessControl
