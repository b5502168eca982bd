import AtlasManager.AccessControl.ProtectedMutations
import AtlasManager.Backup.RetentionRuns
import AtlasManager.Service.ControlOrchestration

/-!
# AtlasManager.AccessControl.AuditedOutcomes

What the audit trail says about operations that report a failure by their result.

* `carriedOut` -- the ports of a mutation whose operation is a program of its own;
* `runMutation_succeeded` -- a success is recorded when the operation returns;
* `control_fails_iff`, `retention_fails_iff` -- when the operations report a failure;
* `audited_success_iff` -- when a recorded success is one.
-/

namespace AtlasManager.AccessControl

open AtlasManager.Lib AtlasManager.EventHistory

/-! ## Operations that are carried out -/

section CarriedOut

variable {C : Type} {R : C → Type} {ε ρ W : Type}

/-- The ports of a mutation: to invoke the operation is to run it, if it is there at all.  The
other ports may answer anything. -/
def carriedOut (H : Prog.Handler C R ε W) (operation : Prog C R ε ρ) (thrown : ε → Thrown ρ) :
    Prog.Handler AdministrationCall (AdministrationCall.Answer ρ) (Thrown ρ) W := fun w call answer w' =>
  match call, answer with
  | .invoke, answer =>
    (∃ o, Prog.Exec H operation w o w' ∧ answer = o.mapError thrown) ∨
      (∃ error, answer = .error error) ∧ w' = w
  | _, _ => w' = w

variable {H : Prog.Handler C R ε W} {operation : Prog C R ε ρ} {thrown : ε → Thrown ρ} {w : W}

/-- As long as nothing has been invoked the world is the old one, and after the first invocation
it is the one that a run of the operation has left. -/
structure Carried (H : Prog.Handler C R ε W) (operation : Prog C R ε ρ) (w : W)
    (state : W × AdministrationLog ρ) : Prop where
  before : invocations state.2 = [] → state.1 = w
  after : ∀ result, invocations state.2 = [.ok result] → Prog.Exec H operation w (.ok result) state.1

theorem carried_step {state state' : W × AdministrationLog ρ} {call : AdministrationCall}
    {answer : Except (Thrown ρ) (call.Answer ρ)} (h : Carried H operation w state)
    (hcall : Prog.recorded (carriedOut H operation thrown) state call answer state') :
    Carried H operation w state' := by
  obtain ⟨v, log⟩ := state
  obtain ⟨v', log'⟩ := state'
  obtain ⟨hcall, hlog⟩ := hcall
  dsimp only at hcall hlog
  subst hlog
  by_cases hinvoke : call = .invoke
  · subst hinvoke
    refine ⟨fun hnone => (by rw [invocations_invoke] at hnone; cases hnone), fun result hresult => ?_⟩
    rw [invocations_invoke, List.cons.injEq] at hresult
    obtain ⟨rfl, hnone⟩ := hresult
    obtain rfl := h.before hnone
    rcases hcall with ⟨o, hexec, ho⟩ | ⟨⟨error, herror⟩, -⟩
    · cases o with
      | ok result' =>
          obtain rfl := Except.ok.inj ho
          exact hexec
      | error error => cases ho
    · cases herror
  · have hsame : v' = v := by
      cases call with
      | invoke => exact absurd rfl hinvoke
      | _ => exact hcall
    subst hsame
    exact ⟨fun hnone => h.before (by rwa [invocations_other hinvoke] at hnone),
      fun result hresult => h.after result (by rwa [invocations_other hinvoke] at hresult)⟩

theorem carried_of_exec {p : AdministrationProg ρ ρ} {outcome : Except (Thrown ρ) ρ} {w' : W}
    {log : AdministrationLog ρ}
    (hexec : Prog.Exec (Prog.recorded (carriedOut H operation thrown)) p (w, []) outcome (w', log)) :
    Carried H operation w (w', log) :=
  (Prog.spec_of_invariant (fun _ _ _ _ h hcall => carried_step h hcall) p
    ⟨fun _ => rfl, fun _ hresult => (by cases hresult)⟩).exec hexec

/-- A run over these ports is a run over ports that may do anything. -/
theorem exec_anything {p : AdministrationProg ρ ρ} {outcome : Except (Thrown ρ) ρ}
    {state state' : W × AdministrationLog ρ}
    (hexec : Prog.Exec (Prog.recorded (carriedOut H operation thrown)) p state outcome state') :
    Prog.Exec (Prog.logged anything) p state.2 outcome state'.2 :=
  hexec.map fun _ _ _ _ hcall => ⟨trivial, hcall.2⟩

end CarriedOut

/-! ## Recorded successes -/

section Succeeded

variable {ρ : Type}

/-- A success of the operation has been recorded. -/
def SuccessRecorded (event : AdministrativeEventOperation) (log : AdministrationLog ρ) : Prop :=
  ∃ recorded ∈ recordedEvents log, recorded.operation = event ∧ recorded.status = .succeeded

/-- A success has been recorded only if the operation has returned a result that reports it. -/
def RecordsTruly (event : AdministrativeEventOperation) (reportsSuccess : ρ → Bool)
    (log : AdministrationLog ρ) : Prop :=
  SuccessRecorded event log → ∃ result, .ok result ∈ invocations log ∧ reportsSuccess result = true

theorem successRecorded_cons {event : AdministrativeEventOperation} {log : AdministrationLog ρ}
    {asked : AdministrativeEventInput} {answer : Except (Thrown ρ) Unit} (h : asked.status ≠ .succeeded) :
    SuccessRecorded event (⟨.record asked, answer⟩ :: log) ↔ SuccessRecorded event log := by
  cases answer with
  | error error => rw [SuccessRecorded, recordedEvents_error, SuccessRecorded]
  | ok answer =>
      rw [SuccessRecorded, recordedEvents_record_ok, SuccessRecorded]
      simp only [List.mem_cons, exists_eq_or_imp]
      exact or_iff_right fun hfirst => h hfirst.2

theorem Unended.not_successRecorded {event : AdministrativeEventOperation} {log : AdministrationLog ρ}
    (h : Unended event log) : ¬ SuccessRecorded event log := by
  rintro ⟨recorded, hrecorded, hoperation, hstatus⟩
  have hterminal := h.unended recorded hrecorded
  simp [isTerminal, hoperation, hstatus] at hterminal

/-- A success is recorded when the operation has returned a result. -/
theorem runMutation_succeeded (operation : AdministrativeOperation) (event : AdministrativeEventOperation)
    (hevent : event ≠ .authorizeAdministrativeOperation) (started succeeded failed : JsValue)
    (code : PartialEffectCode) :
    Prog.Spec (Prog.logged anything) (fun _ => True)
      (runMutation (ρ := ρ) operation event started succeeded failed code)
      (fun _ log => SuccessRecorded event log → ∃ result, invocations log = [.ok result]) [] := by
  have hnothing : Unended (ρ := ρ) event [] := ⟨rfl, by simp⟩
  rw [runMutation]
  refine run_spec hevent hnothing (fun _ _ h hrecorded => absurd hrecorded h.not_successRecorded)
    fun occurredAt source log₁ h₁ hallowed => ?_
  rw [Prog.spec_bind]
  refine (begin_spec h₁ hallowed).mono (fun _ h => h) ?_
  rintro (error | attempt) log₂ ⟨h₂, -⟩
  · exact fun hrecorded => absurd hrecorded h₂.not_successRecorded
  · dsimp only
    rw [Prog.spec_bind, Prog.spec_attempt]
    refine (invokeAudited_spec attempt succeeded code).mono (fun _ h => h) ?_
    rintro o log₃ (⟨error, rfl, rfl⟩ | ⟨result, later, rfl, hlater, houtcome⟩)
    · -- the operation has thrown, and no success is recorded after that
      have hnot : ¬ SuccessRecorded event (⟨.invoke, .error error⟩ :: log₂) := by
        rw [SuccessRecorded, recordedEvents_error]
        exact h₂.not_successRecorded
      have hfailure : Prog.Spec (Prog.logged anything) (fun _ => True) (auditFailure attempt failed error)
          (fun _ log => SuccessRecorded event log → ∃ result, invocations log = [.ok result])
          (⟨.invoke, .error error⟩ :: log₂) := by
        rw [auditFailure, Prog.spec_bind, Prog.spec_attempt]
        refine (complete_spec attempt .failed failed).mono (fun _ h => h) ?_
        rintro o log₄ (⟨code, -, rfl, rfl⟩ | ⟨ended, -, hstatus, ⟨rfl, rfl⟩ | ⟨error', rfl, rfl⟩⟩)
        · exact fun hrecorded => absurd hrecorded hnot
        · exact fun hrecorded => absurd ((successRecorded_cons (by simp [hstatus])).mp hrecorded) hnot
        · exact fun hrecorded => absurd ((successRecorded_cons (by simp [hstatus])).mp hrecorded) hnot
      cases error with
      | partialEffect code' result => exact fun hrecorded => absurd hrecorded hnot
      | _ => exact hfailure
    · have hinvoked : invocations (later ++ ⟨.invoke, .ok result⟩ :: log₂) = [.ok result] := by
        have happend : invocations (later ++ ⟨.invoke, .ok result⟩ :: log₂) =
            invocations later ++ invocations (⟨.invoke, .ok result⟩ :: log₂) := List.filterMap_append
        have hnone : invocations later = [] := by
          rcases hlater with rfl | ⟨ended, answer, -, -, rfl⟩ <;> rfl
        rw [happend, hnone, invocations_invoke, h₂.uninvoked, List.nil_append]
      rcases houtcome with rfl | rfl
      · exact fun _ => ⟨result, hinvoked⟩
      · exact fun _ => ⟨result, hinvoked⟩

/-- What a mutation records of an operation that may report a failure by its result. -/
theorem recordsTruly_iff {C : Type} {R : C → Type} {ε W : Type} {H : Prog.Handler C R ε W}
    {operation : Prog C R ε ρ} {thrown : ε → Thrown ρ} {w w' : W} {p : AdministrationProg ρ ρ}
    {event : AdministrativeEventOperation} {reportsSuccess : ρ → Bool} {fails : W → Prop}
    {outcome : Except (Thrown ρ) ρ} {log : AdministrationLog ρ}
    (hsucceeded : Prog.Spec (Prog.logged anything) (fun _ => True) p
      (fun _ log => SuccessRecorded event log → ∃ result, invocations log = [.ok result]) [])
    (hfails : ∀ result w', Prog.Exec H operation w (.ok result) w' →
      (reportsSuccess result = false ↔ fails w'))
    (hexec : Prog.Exec (Prog.recorded (carriedOut H operation thrown)) p (w, []) outcome (w', log)) :
    RecordsTruly event reportsSuccess log ↔ ¬ (SuccessRecorded event log ∧ fails w') := by
  have hcarried := carried_of_exec hexec
  have hinvoked := hsucceeded.exec (exec_anything hexec)
  constructor
  · rintro htruly ⟨hrecorded, hfail⟩
    obtain ⟨result, honly⟩ := hinvoked hrecorded
    obtain ⟨result', hmem, hsuccess⟩ := htruly hrecorded
    rw [honly, List.mem_singleton] at hmem
    obtain rfl := Except.ok.inj hmem
    rw [(hfails result' w' (hcarried.after result' honly)).mpr hfail] at hsuccess
    cases hsuccess
  · intro hnot hrecorded
    obtain ⟨result, honly⟩ := hinvoked hrecorded
    refine ⟨result, by simp [honly], ?_⟩
    by_contra hfailed
    exact hnot ⟨hrecorded, (hfails result w' (hcarried.after result honly)).mp
      (eq_false_of_ne_true hfailed)⟩

end Succeeded

/-! ## Services -/

section Services

open AtlasManager.Service

variable (graph : RegisteredServiceDependencyGraph) (ports : OrchestrationPorts)
  (targetServiceId : String) (operation : OrchestrationOperation)

/-- The states of the services that a run has read, which it does after its first three calls. -/
def Captured (log : ControlLog) (snapshots : RuntimeSnapshots) : Prop :=
  ∃ first last, first.length = 3 ∧ first <:+ log ∧ last <:+ log ∧
    Prog.Exec (Prog.logged (controlAnswers graph))
      (captureSnapshots ports operation (getCandidateServiceIds targetServiceId operation graph))
      first (.ok snapshots) last

/-- There is no plan for these states, or a step of it has failed. -/
def PlanFails (snapshots : RuntimeSnapshots) (log : ControlLog) : Prop :=
  match planOrchestration { targetServiceId, operation, graph, snapshots } with
  | .error _ => True
  | .ok plan => ¬ (requestsMade log = (plan.steps.filterMap (·.request?)).map (·, true) ∧ ClockWorked log)

/-- What the ports have answered makes the orchestration fail. -/
def ControlFails (log : ControlLog) : Prop :=
  ∃ snapshots, Captured graph ports targetServiceId operation log snapshots ∧
    PlanFails graph targetServiceId operation snapshots log

variable {graph ports targetServiceId operation} {log : ControlLog}

theorem captured_unique {snapshots snapshots' : RuntimeSnapshots}
    (h : Captured graph ports targetServiceId operation log snapshots)
    (h' : Captured graph ports targetServiceId operation log snapshots') : snapshots = snapshots' := by
  obtain ⟨first, last, hlength, hfirst, hlast, hexec⟩ := h
  obtain ⟨first', last', hlength', hfirst', hlast', hexec'⟩ := h'
  obtain rfl : first = first' :=
    (List.suffix_of_suffix_length_le hfirst hfirst' (by omega)).eq_of_length (by omega)
  exact Except.ok.inj (Prog.exec_logged_unique hexec hexec' hlast hlast').1

/-- The result of a plan. -/
theorem orchestratePlan_successful {snapshots : RuntimeSnapshots} (startedAt : String)
    (hmade : requestsMade log = []) (hclock : ClockWorked log) :
    Prog.Spec (Prog.logged (controlAnswers graph)) (fun _ => True)
      (orchestratePlan ports targetServiceId operation startedAt graph snapshots)
      (fun o log' => ∀ result, o = .ok result →
        (result.successful = false ↔ PlanFails graph targetServiceId operation snapshots log')) log := by
  unfold orchestratePlan PlanFails
  cases hplan : planOrchestration { targetServiceId, operation, graph, snapshots } with
  | error error =>
      dsimp only
      rw [createFailedResult, Prog.spec_bind]
      refine nowText_spec.mono (fun _ h => h) ?_
      rintro o log₁ -
      cases o with
      | error error' => exact fun result hresult => (by cases hresult)
      | ok completedAt =>
          intro result hresult
          obtain rfl := Except.ok.inj hresult
          exact iff_of_true rfl trivial
  | ok plan =>
      obtain ⟨-, -, hsteps⟩ := planOrchestration_ok hplan
      dsimp only
      rw [Prog.spec_bind]
      refine (runSteps_spec plan.steps (planSteps_wellFormed hsteps) [] hclock).mono (fun _ h => h) ?_
      rintro o log₁ ⟨results, made, rfl, hmade₁, hexec⟩
      rw [hmade, List.nil_append] at hmade₁
      subst hmade₁
      dsimp only
      rw [Prog.spec_bind]
      refine nowText_spec.mono (fun _ h => h) ?_
      rintro o log₂ ⟨reading, rfl, hreading⟩
      cases o with
      | error error => exact fun result hresult => (by cases hresult)
      | ok completedAt =>
          intro result hresult
          obtain rfl := Except.ok.inj hresult
          have hquiet : requestsMade (⟨.now, reading⟩ :: log₁) = requestsMade log₁ := by
            simp [requestsMade_cons, requestMade?]
          have hclock₂ : ClockWorked (⟨.now, reading⟩ :: log₁) ↔ ClockWorked log₁ := by
            rw [clockWorked_cons_now, and_iff_right (hreading.mp ⟨completedAt, rfl⟩)]
          rw [hquiet, hclock₂, ← hexec.success]
          simp

/-- The states are read, and then the plan is carried out. -/
theorem capture_then_plan (startedAt : String) {first : ControlLog} (hlength : first.length = 3)
    (hmade : requestsMade first = []) (hclock : ClockWorked first) :
    Prog.Spec (Prog.logged (controlAnswers graph)) (fun _ => True)
      (captureSnapshots ports operation (getCandidateServiceIds targetServiceId operation graph) >>=
        fun snapshots => orchestratePlan ports targetServiceId operation startedAt graph snapshots)
      (fun o log => ∀ result, o = .ok result →
        ∃ snapshots, Captured graph ports targetServiceId operation log snapshots ∧
          (result.successful = false ↔ PlanFails graph targetServiceId operation snapshots log)) first := by
  have hkeep : ∀ (log : ControlLog) call (answer : Except OrchestrationError call.Answer) log',
      IsPreparation call → (requestsMade log = [] ∧ ClockWorked log) →
      Prog.logged (controlAnswers graph) log call answer log' →
      requestsMade log' = [] ∧ ClockWorked log' := by
    rintro log call answer log' ⟨hnow, hnone⟩ ⟨hmade, hclock⟩ ⟨-, rfl⟩
    exact ⟨by rw [requestsMade_cons, hnone, hmade]; rfl, (clockWorked_cons hnow answer).mpr hclock⟩
  have hcapture := ((Prog.Spec.trivial (captureSnapshots ports operation
    (getCandidateServiceIds targetServiceId operation graph))).end_of_exec).and
      (Prog.spec_of_only (only_captureSnapshots _) hkeep ⟨hmade, hclock⟩)
  rw [Prog.spec_bind]
  refine hcapture.mono (fun _ _ => trivial) ?_
  rintro (error | snapshots) last ⟨⟨-, hcaptured⟩, hmade₁, hclock₁⟩
  · exact fun result hresult => (by cases hresult)
  · dsimp only
    refine (orchestratePlan_successful startedAt hmade₁ hclock₁).end_of_exec.mono (fun _ h => h) ?_
    rintro o log ⟨hfails, hexec⟩ result hresult
    exact ⟨snapshots, ⟨first, last, hlength, hcaptured.suffix.trans hexec.suffix, hexec.suffix, hcaptured⟩,
      hfails result hresult⟩

/-- The result of an orchestration. -/
theorem control_fails_iff {result : OrchestrationResult}
    (hexec : Prog.Exec (Prog.logged (controlAnswers graph))
      (orchestrateControl ports targetServiceId operation .manual) [] (.ok result) log) :
    result.successful = false ↔ ControlFails graph ports targetServiceId operation log := by
  have hspec : Prog.Spec (Prog.logged (controlAnswers graph)) (fun _ => True)
      (orchestrateControl ports targetServiceId operation .manual)
      (fun o log => ∀ result, o = .ok result →
        ∃ snapshots, Captured graph ports targetServiceId operation log snapshots ∧
          (result.successful = false ↔ PlanFails graph targetServiceId operation snapshots log)) [] := by
    rw [orchestrateControl, Prog.spec_bind]
    refine (findRegisteredService_spec targetServiceId).mono (fun _ h => h) ?_
    rintro (error | target) log₁ ⟨⟨found, rfl⟩, -⟩
    · exact fun result hresult => (by cases hresult)
    · dsimp only
      rw [Prog.spec_bind]
      refine nowText_spec.mono (fun _ h => h) ?_
      rintro (error | startedAt) log₂ ⟨reading, rfl, hreading⟩
      · exact fun result hresult => (by cases hresult)
      · obtain ⟨instant, rfl⟩ := hreading.mp ⟨startedAt, rfl⟩
        dsimp only
        rw [Prog.spec_bind, Prog.spec_perform]
        rintro answer log₃ ⟨hanswer, rfl⟩
        refine ⟨trivial, ?_⟩
        cases answer with
        | error error => exact fun result hresult => (by cases hresult)
        | ok graph' =>
            obtain rfl : graph' = graph := hanswer
            dsimp only
            rw [if_neg (by simp)]
            exact capture_then_plan startedAt (by simp) (by simp [requestsMade, requestMade?])
              (by
                intro reading hmem
                simp only [List.mem_cons, List.not_mem_nil, or_false] at hmem
                rcases hmem with heq | heq | heq
                · cases heq
                · cases heq
                  exact ⟨instant, rfl⟩
                · cases heq)
  obtain ⟨snapshots, hcaptured, hfails⟩ := hspec.exec hexec result rfl
  rw [hfails]
  constructor
  · exact fun hplan => ⟨snapshots, hcaptured, hplan⟩
  · rintro ⟨snapshots', hcaptured', hplan⟩
    rwa [captured_unique hcaptured hcaptured']

end Services
/-! ## Retention -/

section Retention

open AtlasManager.Backup AtlasManager.Backup.Retention

/-- The page that a call has been answered with. -/
def page? : Prog.Event RetentionCall RetentionCall.Answer String → Option (List BackupRun)
  | ⟨.query _, .ok page⟩ => some page
  | _ => none

/-- The runs with an artifact on the pages of a retention run. -/
def pagedRuns (log : RetentionLog) : List BackupRun :=
  ((log.filterMap page?).flatten).filter (·.artifact.isSome)

/-- The gate is taken, or an artifact that is listed belongs to no run. -/
def RetentionRefused (log : RetentionLog) : Prop :=
  ⟨.tryAcquire, .ok false⟩ ∈ log ∨
    ∃ targetId artifacts, ⟨.listManaged targetId, .ok artifacts⟩ ∈ log ∧
      ∃ artifact ∈ artifacts, ∀ run ∈ pagedRuns log, run.runId ≠ artifact.runId

/-- What the ports have answered makes the retention run fail. -/
def RetentionFails (log : RetentionLog) : Prop :=
  RetentionRefused log ∨ ∃ removal ∈ removals log, removal.2 = false

/-- Ports may answer anything or throw. -/
def anyRetention (call : RetentionCall) (_ : Except String call.Answer) : Prop := True

variable {runtime : Runtime} {targetId : String} {log : RetentionLog}

/-- A call that cannot make a run refuse. -/
def IsQuiet (call : RetentionCall) : Prop :=
  call ≠ .tryAcquire ∧ (∀ input, call ≠ .query input) ∧ ∀ targetId, call ≠ .listManaged targetId

theorem pagedRuns_cons {call : RetentionCall} {answer : Except String call.Answer}
    (h : ∀ input, call ≠ .query input) : pagedRuns (⟨call, answer⟩ :: log) = pagedRuns log := by
  have hnone : page? ⟨call, answer⟩ = none := by
    cases call with
    | query input => exact absurd rfl (h input)
    | _ => rfl
  rw [pagedRuns, List.filterMap_cons_none hnone, pagedRuns]

theorem pagedRuns_query {input : BackupRunQuery} {page : List BackupRun} :
    pagedRuns (⟨.query input, .ok page⟩ :: log) = page.filter (·.artifact.isSome) ++ pagedRuns log := by
  have hsome : page? ⟨.query input, .ok page⟩ = some page := rfl
  rw [pagedRuns, List.filterMap_cons_some hsome, List.flatten_cons, List.filter_append, pagedRuns]

theorem retentionRefused_cons {call : RetentionCall} {answer : Except String call.Answer}
    (h : IsQuiet call) : RetentionRefused (⟨call, answer⟩ :: log) ↔ RetentionRefused log := by
  obtain ⟨hacquire, hquery, hlist⟩ := h
  have hmem : ∀ event, event.call ≠ call → (event ∈ (⟨call, answer⟩ :: log : RetentionLog) ↔ event ∈ log) := by
    intro event hne
    rw [List.mem_cons]
    exact or_iff_right fun heq => hne (congrArg Prog.Event.call heq)
  rw [RetentionRefused, RetentionRefused, pagedRuns_cons hquery, hmem _ hacquire.symm]
  refine or_congr_right (exists_congr fun targetId => exists_congr fun artifacts => ?_)
  rw [hmem _ (hlist targetId).symm]

/-- Nothing can have been refused when the gate has been free and nothing has been listed. -/
def Unlisted (log : RetentionLog) : Prop :=
  ⟨.tryAcquire, .ok false⟩ ∉ log ∧ (∀ targetId answer, ⟨.listManaged targetId, answer⟩ ∉ log) ∧
    removals log = []

/-- The loop over the pages collects the runs on them. -/
theorem collectRuns_paged (pages : Nat) (afterSequence : JsNumber) (runs : List BackupRun)
    (hruns : ∀ run, run ∈ runs ↔ run ∈ pagedRuns log) (hlog : Unlisted log) :
    Prog.Spec (Prog.logged anyRetention) (fun _ => True) (collectRuns targetId pages afterSequence runs)
      (fun o log' => Unlisted log' ∧ ∀ collected, o = .ok collected →
        ∀ run, run ∈ collected ↔ run ∈ pagedRuns log') log := by
  induction pages generalizing afterSequence runs log with
  | zero => exact ⟨hlog, fun _ hok => (by cases hok)⟩
  | succ pages ih =>
      rw [collectRuns, Prog.spec_bind, Retention.ask, Prog.spec_perform]
      rintro answer log₁ ⟨-, rfl⟩
      refine ⟨trivial, ?_⟩
      have hlog₁ : Unlisted (⟨.query (pageQuery targetId afterSequence), answer⟩ :: log) := by
        obtain ⟨hacquire, hlist, hremovals⟩ := hlog
        refine ⟨by simpa using hacquire, fun targetId answer => by simpa using hlist targetId answer, ?_⟩
        rw [removals_cons fun _ _ => by simp, hremovals]
      cases answer with
      | error error => exact ⟨hlog₁, fun _ hok => (by cases hok)⟩
      | ok page =>
          have hruns₁ : ∀ run, run ∈ runs ++ page.filter (·.artifact.isSome) ↔
              run ∈ pagedRuns (⟨.query (pageQuery targetId afterSequence), .ok page⟩ :: log) := by
            intro run
            rw [pagedRuns_query, List.mem_append, List.mem_append, hruns, or_comm]
          dsimp only
          by_cases hshort : page.length < 100
          · rw [if_pos hshort]
            refine ⟨hlog₁, fun collected hcollected => ?_⟩
            obtain rfl := Except.ok.inj hcollected
            exact hruns₁
          · rw [if_neg hshort]
            cases page.getLast? with
            | none => exact ⟨hlog₁, fun _ hok => (by cases hok)⟩
            | some last =>
                dsimp only
                by_cases hafter : notAfter last.sequence afterSequence = true
                · rw [if_pos hafter]
                  exact ⟨hlog₁, fun _ hok => (by cases hok)⟩
                · rw [if_neg hafter]
                  exact ih _ _ hruns₁ hlog₁

theorem only_removeAll (processedCount : Nat) (rest : List ManagedBackupArtifact) (deletedCount : Nat) :
    Prog.Only IsQuiet (removeAll targetId processedCount rest deletedCount) := by
  induction rest generalizing deletedCount with
  | nil => exact trivial
  | cons artifact rest ih =>
      have hquiet : IsQuiet (.removeManaged targetId artifact.runId) := by
        simp [IsQuiet]
      have hask : Prog.Only IsQuiet (Retention.ask (.removeManaged targetId artifact.runId)) :=
        Prog.only_perform.mpr hquiet
      rw [removeAll]
      refine Prog.Only.bind (Prog.only_attempt.mpr hask) fun outcome => ?_
      · cases outcome with
        | ok answer => exact ih _
        | error error => exact trivial

/-- The result of the loop over the artifacts. -/
theorem removeAll_fails (processedCount : Nat) (rest : List ManagedBackupArtifact)
    (hrefused : ¬ RetentionRefused log) (hremovals : removals log = []) :
    Prog.Spec (Prog.logged anyRetention) (fun _ => True) (removeAll targetId processedCount rest 0)
      (fun o log' => ∀ result, o = .ok result →
        (result.result ≠ .completed ↔ RetentionFails log')) log := by
  have hkeep : ∀ (log : RetentionLog) call (answer : Except String call.Answer) log', IsQuiet call →
      ¬ RetentionRefused log → Prog.logged anyRetention log call answer log' →
      ¬ RetentionRefused log' := by
    rintro log call answer log' hquiet hrefused ⟨-, rfl⟩
    rwa [retentionRefused_cons hquiet]
  refine ((removeAll_spec targetId processedCount rest 0 log).and
    (Prog.spec_of_only (only_removeAll processedCount rest 0) hkeep hrefused)).mono
      (fun _ _ => trivial) ?_
  rintro o log' ⟨hends, hrefused'⟩ result hresult
  rw [RetentionFails, or_iff_right hrefused']
  simp only [hremovals, List.nil_append] at hends
  rcases hends with ⟨hlog, ho⟩ | ⟨before, last, after, -, hlog, ho⟩
  · obtain rfl := Except.ok.inj (hresult.symm.trans ho)
    rw [hlog]
    simp
  · obtain rfl := Except.ok.inj (hresult.symm.trans ho)
    rw [hlog]
    by_cases hnone : before = []
    · simp [hnone]
    · simp [hnone]

/-- The result of the block under the gate. -/
theorem applyRetention_fails {target : BackupTarget} (pages : Nat) (hlog : Unlisted log)
    (hnone : pagedRuns log = []) :
    Prog.Spec (Prog.logged anyRetention) (fun _ => True) (applyRetention runtime pages target targetId)
      (fun o log' => ∀ result, o = .ok result →
        (result.result ≠ .completed ↔ RetentionFails log')) log := by
  rw [applyRetention, Prog.spec_bind]
  refine (collectRuns_paged pages (.finite 0) [] (by simp [hnone]) hlog).mono (fun _ h => h) ?_
  rintro (error | runs) log₁ ⟨⟨hacquire, hlist, hremovals⟩, hruns⟩
  · exact fun result hresult => (by cases hresult)
  · have hruns := hruns runs rfl
    dsimp only
    rw [Prog.spec_bind, Retention.ask, Prog.spec_perform]
    rintro answer log₂ ⟨-, rfl⟩
    refine ⟨trivial, ?_⟩
    cases answer with
    | error error => exact fun result hresult => (by cases hresult)
    | ok artifacts =>
        dsimp only
        -- the listing refuses exactly when one of its artifacts belongs to no run
        have hrefused : RetentionRefused (⟨.listManaged targetId, .ok artifacts⟩ :: log₁) ↔
            (artifacts.any fun artifact => (runtime.sortRuns.sort (compareRuns runtime) runs).all
              (·.runId ≠ artifact.runId)) = true := by
          rw [RetentionRefused, pagedRuns_cons (by simp)]
          simp only [List.any_eq_true, List.all_eq_true, decide_eq_true_eq, ArraySort.mem_sort, hruns]
          constructor
          · rintro (hmem | ⟨otherId, listed, hmem, hunknown⟩)
            · rw [List.mem_cons] at hmem
              exact absurd (hmem.resolve_left (by simp)) hacquire
            · rw [List.mem_cons] at hmem
              have heq := hmem.resolve_right (hlist otherId _)
              cases heq
              exact hunknown
          · exact fun hunknown => .inr ⟨targetId, artifacts, List.mem_cons_self, hunknown⟩
        have hremovals₂ : removals (⟨.listManaged targetId, .ok artifacts⟩ :: log₁) = [] := by
          rw [removals_cons fun _ _ => by simp, hremovals]
        by_cases hunknown : (artifacts.any fun artifact =>
            (runtime.sortRuns.sort (compareRuns runtime) runs).all (·.runId ≠ artifact.runId)) = true
        · rw [if_pos hunknown]
          intro result hresult
          obtain rfl := Except.ok.inj hresult
          exact iff_of_true (by simp) (.inl (hrefused.mpr hunknown))
        · rw [if_neg hunknown, Prog.spec_bind, Retention.ask, Prog.spec_perform]
          rintro answer log₃ ⟨-, rfl⟩
          refine ⟨trivial, ?_⟩
          cases answer with
          | error error => exact fun result hresult => (by cases hresult)
          | ok now =>
              refine removeAll_fails _ _ ?_ ?_
              · rw [retentionRefused_cons (by simp [IsQuiet]), hrefused]
                exact hunknown
              · rw [removals_cons fun _ _ => by simp, hremovals₂]

/-- The result of a retention run. -/
theorem retention_fails_iff {pages : Nat} {result : BackupRetentionResult}
    (hexec : Prog.Exec (Prog.logged anyRetention) (execute runtime pages targetId) [] (.ok result) log) :
    (decide (result.result = .completed) = false ↔ RetentionFails log) := by
  have hspec : Prog.Spec (Prog.logged anyRetention) (fun _ => True) (execute runtime pages targetId)
      (fun o log => ∀ result, o = .ok result →
        (result.result ≠ .completed ↔ RetentionFails log)) [] := by
    rw [execute, Prog.spec_bind, Retention.ask, Prog.spec_perform]
    rintro answer log₁ ⟨-, rfl⟩
    refine ⟨trivial, ?_⟩
    cases answer with
    | error error => exact fun result hresult => (by cases hresult)
    | ok found =>
        cases found with
        | none => exact fun result hresult => (by cases hresult)
        | some target =>
            dsimp only
            rw [Prog.spec_bind, Retention.ask, Prog.spec_perform]
            rintro answer log₂ ⟨-, rfl⟩
            refine ⟨trivial, ?_⟩
            cases answer with
            | error error => exact fun result hresult => (by cases hresult)
            | ok acquired =>
                dsimp only
                by_cases hacquired : acquired = true
                · subst hacquired
                  rw [if_pos rfl, Prog.spec_bind, Prog.spec_attempt]
                  refine (applyRetention_fails pages ⟨by simp, by simp, rfl⟩ rfl).mono (fun _ h => h) ?_
                  intro o log₃ ho
                  dsimp only
                  rw [Prog.spec_bind, Retention.ask, Prog.spec_perform]
                  rintro answer log₄ ⟨-, rfl⟩
                  refine ⟨trivial, ?_⟩
                  cases answer with
                  | error error => exact fun result hresult => (by cases hresult)
                  | ok answer =>
                      dsimp only
                      rw [Prog.spec_ofExcept]
                      intro result hresult
                      rw [ho result hresult, RetentionFails, RetentionFails,
                        retentionRefused_cons (by simp [IsQuiet]), removals_cons fun _ _ => by simp]
                · rw [if_neg hacquired]
                  intro result hresult
                  obtain rfl := Except.ok.inj hresult
                  refine iff_of_true (by simp) (.inl (.inl ?_))
                  rw [eq_false_of_ne_true hacquired]
                  exact List.mem_cons_self
  rw [decide_eq_false_iff_not]
  exact hspec.exec hexec result rfl

end Retention
/-! ## What is recorded of them -/

section Outcomes

open AtlasManager.Service AtlasManager.Backup AtlasManager.Backup.Retention

def controlMutation : OrchestrationOperation → ServiceMutation
  | .start => .startRegisteredService
  | .stop => .stopRegisteredService
  | .restart => .restartRegisteredService

/-- **When a recorded success is one**: a success is recorded of an operation that has reported
a failure exactly when the recorder takes the event of a failed orchestration or retention run. -/
theorem audited_success_iff (resourceId : String) :
    (∀ graph ports operation thrown outcome low log,
      Prog.Exec (Prog.recorded (carriedOut (Prog.logged (controlAnswers graph))
          (orchestrateControl ports resourceId operation .manual) thrown))
        (runServiceMutation (controlMutation operation) resourceId) ([], []) outcome (low, log) →
      (RecordsTruly (controlMutation operation).event (·.successful) log ↔
        ¬ (SuccessRecorded (controlMutation operation).event log ∧
          ControlFails graph ports resourceId operation low))) ∧
    ∀ runtime pages thrown outcome low log,
      Prog.Exec (Prog.recorded (carriedOut (Prog.logged anyRetention)
          (execute runtime pages resourceId) thrown))
        (runBackupMutation .runBackupRetentionPrune resourceId) ([], []) outcome (low, log) →
      (RecordsTruly .runBackupRetentionPrune (fun result => decide (result.result = .completed)) log ↔
        ¬ (SuccessRecorded .runBackupRetentionPrune log ∧ RetentionFails low)) := by
  constructor
  · intro graph ports operation thrown outcome low log hexec
    have hevent : (controlMutation operation).event ≠ .authorizeAdministrativeOperation :=
      (ProtectedMutation.service (controlMutation operation) resourceId).event_ne
    exact recordsTruly_iff (runMutation_succeeded _ _ hevent _ _ _ _)
      (fun result low hcontrol => control_fails_iff hcontrol) hexec
  · intro runtime pages thrown outcome low log hexec
    exact recordsTruly_iff (runMutation_succeeded _ _ (by decide) _ _ _ _)
      (fun result low hretention => retention_fails_iff hretention) hexec

/-! ## A retention run while another operation has the gate -/

/-- Retention for the documents, without artifacts; the gate is free or it is not. -/
def retentionAt (free : Bool) : (call : RetentionCall) → Except String call.Answer
  | .findById _ => .ok (some docs)
  | .tryAcquire => .ok free
  | .query _ => .ok []
  | .listManaged _ => .ok []
  | .now => .ok 0
  | .removeManaged _ _ => .error "backup_artifact_unsafe"
  | .release => .ok ()

def retentionRun (free : Bool) (log : RetentionLog) :
    Except String BackupRetentionResult × RetentionLog :=
  Prog.run (fun log call => (retentionAt free call, ⟨call, retentionAt free call⟩ :: log))
    (execute hoursRuntime 1 "docs") log

def retentionThrown (message : String) : Thrown BackupRetentionResult := .error "Error" message

/-- An administrator asks for it, and every event is recorded. -/
def pruneAt (free : Bool) (state : RetentionLog × AdministrationLog BackupRetentionResult) :
    (call : AdministrationCall) → Except (Thrown BackupRetentionResult) (call.Answer BackupRetentionResult) ×
      RetentionLog × AdministrationLog BackupRetentionResult
  | .now => (.ok ⟨0, Timestamp.zero_inRange⟩, state.1,
      ⟨.now, .ok ⟨0, Timestamp.zero_inRange⟩⟩ :: state.2)
  | .authenticate => (.ok (.authenticated operator), state.1,
      ⟨.authenticate, .ok (.authenticated operator)⟩ :: state.2)
  | .readRoles principal => (.ok (.assigned [.administrator]), state.1,
      ⟨.readRoles principal, .ok (.assigned [.administrator])⟩ :: state.2)
  | .generateAttemptId => (.ok "6f1c110b-3c52-4d7c-9f0a-5e8a3f6f1c11", state.1,
      ⟨.generateAttemptId, .ok "6f1c110b-3c52-4d7c-9f0a-5e8a3f6f1c11"⟩ :: state.2)
  | .record event => (.ok (), state.1, ⟨.record event, .ok ()⟩ :: state.2)
  | .invoke => ((retentionRun free state.1).1.mapError retentionThrown, (retentionRun free state.1).2,
      ⟨.invoke, (retentionRun free state.1).1.mapError retentionThrown⟩ :: state.2)

def pruneRun (free : Bool) : Except (Thrown BackupRetentionResult) BackupRetentionResult ×
    RetentionLog × AdministrationLog BackupRetentionResult :=
  Prog.run (pruneAt free) (runBackupMutation .runBackupRetentionPrune "docs") ([], [])

theorem exec_pruneRun (free : Bool) :
    Prog.Exec (Prog.recorded (carriedOut (Prog.logged anyRetention) (execute hoursRuntime 1 "docs")
      retentionThrown)) (runBackupMutation .runBackupRetentionPrune "docs") ([], [])
      (pruneRun free).1 (pruneRun free).2 := by
  refine Prog.exec_run (fun state call => ?_) _ _
  cases call with
  | invoke => exact ⟨.inl ⟨_, Prog.exec_run (fun _ _ => ⟨trivial, rfl⟩) _ _, rfl⟩, rfl⟩
  | _ => exact ⟨rfl, rfl⟩

/-- Has a call been answered as when there is nothing to do? -/
def isFine : Prog.Event RetentionCall RetentionCall.Answer String → Bool
  | ⟨.tryAcquire, .ok free⟩ => free
  | ⟨.listManaged _, .ok artifacts⟩ => artifacts.isEmpty
  | ⟨.removeManaged _ _, answer⟩ => answer.isOk
  | _ => true

theorem not_retentionFails {log : RetentionLog} (h : ∀ event ∈ log, isFine event = true) :
    ¬ RetentionFails log := by
  rintro ((hacquire | ⟨targetId, artifacts, hlist, artifact, hartifact, -⟩) | ⟨⟨runId, done⟩, hremoval, hfailed⟩)
  · cases h _ hacquire
  · have hnone := h _ hlist
    rw [isFine, List.isEmpty_iff] at hnone
    rw [hnone] at hartifact
    cases hartifact
  · obtain ⟨⟨call, answer⟩, hevent, hsome⟩ := List.mem_filterMap.mp (List.mem_reverse.mp hremoval)
    have hok := h _ hevent
    cases call with
    | removeManaged targetId runId =>
        obtain ⟨-, rfl⟩ := Prod.mk.inj (Option.some.inj hsome)
        rw [isFine, show answer.isOk = false from hfailed] at hok
        cases hok
    | _ => cases hsome

/-- When the gate is free the run is completed, and that is recorded. -/
theorem audited_success_iff_free :
    SuccessRecorded .runBackupRetentionPrune (pruneRun true).2.2 ∧
      RecordsTruly .runBackupRetentionPrune (fun result => decide (result.result = .completed))
        (pruneRun true).2.2 := by
  have hrun : (∃ recorded ∈ recordedEvents (pruneRun true).2.2,
      recorded.operation = .runBackupRetentionPrune ∧ recorded.status = .succeeded) ∧
      ∀ event ∈ (pruneRun true).2.1, isFine event = true := by
    decide +kernel
  refine ⟨hrun.1, ?_⟩
  refine ((audited_success_iff "docs").2 hoursRuntime 1 retentionThrown (pruneRun true).1
    (pruneRun true).2.1 (pruneRun true).2.2 (exec_pruneRun true)).mpr ?_
  rintro ⟨-, hfails⟩
  exact not_retentionFails hrun.2 hfails

/-- When the gate is taken nothing is done, and a success is recorded. -/
theorem not_recordsTruly_busy :
    ∃ outcome low log,
      Prog.Exec (Prog.recorded (carriedOut (Prog.logged anyRetention) (execute hoursRuntime 1 "docs")
        retentionThrown)) (runBackupMutation .runBackupRetentionPrune "docs") ([], []) outcome (low, log) ∧
      invocations log = [.ok ⟨"docs", 0, 0, .busy⟩] ∧
      SuccessRecorded .runBackupRetentionPrune log ∧
      ¬ RecordsTruly .runBackupRetentionPrune (fun result => decide (result.result = .completed)) log := by
  have hrun : invocations (pruneRun false).2.2 = [.ok ⟨"docs", 0, 0, .busy⟩] ∧
      ∃ recorded ∈ recordedEvents (pruneRun false).2.2,
        recorded.operation = .runBackupRetentionPrune ∧ recorded.status = .succeeded := by
    decide +kernel
  obtain ⟨hinvoked, hrecorded⟩ := hrun
  refine ⟨(pruneRun false).1, (pruneRun false).2.1, (pruneRun false).2.2, exec_pruneRun false,
    hinvoked, hrecorded, fun htruly => ?_⟩
  obtain ⟨result, hresult, hsuccess⟩ := htruly hrecorded
  rw [hinvoked, List.mem_singleton] at hresult
  obtain rfl := Except.ok.inj hresult
  cases hsuccess

end Outcomes

end AtlasManager.AccessControl
