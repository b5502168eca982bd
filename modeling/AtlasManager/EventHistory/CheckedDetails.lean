import AtlasManager.EventHistory.ReadFields

/-!
# AtlasManager.EventHistory.CheckedDetails

What the check of the details of an event makes of them.

* `CopyingCheck` -- a check that gives back the record, in whatever order its fields come;
* `SelectingCheck` -- a check that gives back fields of the record, and does not look at others;
* `createDetails_obj` -- the check of the details is the one or the other, for every operation;
* `createDetails_again`, `createDetails_accepts` -- so it takes what it gives back, and all that has
  the same fields.
-/

namespace AtlasManager.EventHistory

open AtlasManager.Lib AtlasManager.Backup AtlasManager.AccessControl

/-! ## Checks that copy and checks that select -/

/-- Every field of these details is a flat field of the record. -/
def Selects (record fields : Fields) : Prop :=
  (fields.map Prod.fst).Nodup ∧ ∀ f ∈ fields, Reads record f.1 (some f.2)

/-- These details are the record again, in whatever order. -/
structure Copies (record fields : Fields) : Prop where
  selects : Selects record fields
  same : SameFields fields record

/-- A check whose result is a copy.  The order of the fields does not matter to it, unless the
result is the record itself. -/
structure CopyingCheck (check : Fields → Check Fields) : Prop where
  copies : ∀ {record fields}, (record.map Prod.fst).Nodup → check record = .ok fields →
    Copies record fields
  respects : ∀ {a b}, SameFields a b → a.length = b.length → ∀ {fields}, check a = .ok fields →
    check b = .ok fields ∨ fields = a ∧ check b = .ok b

/-- A check that reads some fields and does not look at others. -/
structure SelectingCheck (check : Fields → Check Fields) : Prop where
  selects : ∀ {record fields}, check record = .ok fields → Selects record fields
  respects : ∀ {a b fields}, check a = .ok fields → (∀ f ∈ fields, b.lookup f.1 = some f.2) →
    check b = .ok fields

theorem copies_freezeDefined {fields : List (String × Option JsValue)} {record : Fields}
    (hnodup : (fields.map Prod.fst).Nodup) (hreads : ∀ f ∈ fields, Reads record f.1 f.2)
    (hallowed : hasFieldOutside (fields.map Prod.fst) record = false) :
    Copies record (freezeDefined fields) where
  selects := by
    refine ⟨hnodup.sublist (sublist_freezeDefined fields), fun g hg => ?_⟩
    obtain ⟨f, hf, hvalue⟩ := List.mem_filterMap.mp hg
    rw [Option.map_eq_some_iff] at hvalue
    obtain ⟨v, hv, rfl⟩ := hvalue
    have hread := hreads f hf
    rwa [hv] at hread
  same := sameFields_freezeDefined hnodup hreads hallowed

theorem hasFieldOutside_of_hasExactFields {record : Fields} {names : List String}
    (h : hasExactFields record names = true) : hasFieldOutside names record = false := by
  rw [hasExactFields, Bool.and_eq_true, Bool.not_eq_true'] at h
  exact h.2

variable {status : AdministrativeEventStatus}

theorem copying_failureDetails : CopyingCheck failureDetails where
  copies := by
    intro record fields _ h
    simp only [failureDetails, bind_eq_ok, assertAllowedKeys_eq_ok, requireFailureCode_eq_ok] at h
    obtain ⟨-, hallowed, -, ⟨text, -, hfield, rfl⟩, h⟩ := h
    obtain rfl := Except.ok.inj h
    show Copies record (freezeDefined [("failureCode", some (.str text))])
    refine copies_freezeDefined (by simp) ?_ hallowed
    simp only [List.forall_mem_singleton]
    exact reads_of_field hfield (by simp) trivial
  respects := by
    intro a b hsame _ fields h
    refine .inl ?_
    rw [← h]
    simp only [failureDetails, assertAllowedKeys, requireFailureCode, hsame.field,
      hsame.hasFieldOutside]

theorem copying_authorizationDetails : CopyingCheck (authorizationDetails status) where
  copies := by
    intro record fields _ h
    simp only [authorizationDetails, bind_eq_ok, require_eq_ok, assertAllowedKeys_eq_ok] at h
    obtain ⟨-, -, -, hallowed, h⟩ := h
    cases hop : oneOf AdministrativeOperation.all AdministrativeOperation.text
        (field record "requestedOperation") with
    | none => simp [hop] at h
    | some operation =>
        simp only [hop, bind_eq_ok, require_eq_ok, Bool.and_eq_true, Bool.or_eq_true,
          decide_eq_true_eq] at h
        obtain ⟨-, ⟨⟨⟨hpermission, hdecision⟩, -⟩, -⟩, h⟩ := h
        have hrequested := reads_of_field (text_of_oneOf hop) (by simp) trivial
        have hpermitted := reads_of_field hpermission (by simp) trivial
        split_ifs at h with hyes
        · simp only [bind_eq_ok, require_eq_ok, Bool.not_eq_true'] at h
          obtain ⟨-, hreason, h⟩ := h
          obtain rfl := Except.ok.inj h
          rw [hpermission, hyes]
          show Copies record (freezeDefined [("requestedOperation", some (.str operation.text)),
            ("permission", some (.str operation.permission.text)),
            ("decision", some (.str "allowed")), ("reasonCode", none)])
          refine copies_freezeDefined (by simp) ?_ hallowed
          simp only [List.forall_mem_cons, List.not_mem_nil, false_implies, implies_true, and_true]
          exact ⟨hrequested, hpermitted, reads_of_field hyes (by simp) trivial,
            reads_of_not_hasOwn (by simp [hreason])⟩
        · have hno : field record "decision" = .str "denied" := hdecision.resolve_left hyes
          simp only [bind_eq_ok] at h
          obtain ⟨reason, hreason, h⟩ := h
          obtain rfl := Except.ok.inj h
          rw [hpermission, hno]
          show Copies record (freezeDefined [("requestedOperation", some (.str operation.text)),
            ("permission", some (.str operation.permission.text)),
            ("decision", some (.str "denied")), ("reasonCode", some reason)])
          refine copies_freezeDefined (by simp) ?_ hallowed
          simp only [List.forall_mem_cons, List.not_mem_nil, false_implies, implies_true, and_true]
          exact ⟨hrequested, hpermitted, reads_of_field hno (by simp) trivial,
            reads_of_requireOneOf hreason⟩
  respects := by
    intro a b hsame _ fields h
    refine .inl ?_
    rw [← h]
    simp only [authorizationDetails, assertAllowedKeys, requireOneOf, hsame.field, hsame.hasOwn,
      hsame.hasFieldOutside]

theorem copying_registeredDetails (name : String) (hname : name ∉ ["outcome", "failureCode"])
    (failureCodes : List String) :
    CopyingCheck fun record => registeredDetails status record name failureCodes where
  copies := by
    intro record fields _ h
    simp only [List.mem_cons, List.not_mem_nil, or_false, not_or] at hname
    simp only [registeredDetails] at h
    cases hid : field record name with
    | str id =>
        have hreads := reads_of_field hid (by simp) trivial
        simp only [hid] at h
        split_ifs at h with hregistered
        cases status with
        | started =>
            simp only [bind_eq_ok, require_eq_ok] at h
            obtain ⟨-, hexact, h⟩ := h
            obtain rfl := Except.ok.inj h
            show Copies record (freezeDefined [(name, some (.str id))])
            refine copies_freezeDefined (by simp) ?_ (hasFieldOutside_of_hasExactFields hexact)
            simp only [List.forall_mem_singleton]
            exact hreads
        | succeeded =>
            simp only [bind_eq_ok, require_eq_ok, Bool.and_eq_true, decide_eq_true_eq] at h
            obtain ⟨-, ⟨hexact, houtcome⟩, h⟩ := h
            obtain rfl := Except.ok.inj h
            show Copies record (freezeDefined [(name, some (.str id)), ("outcome", some (.str "succeeded"))])
            refine copies_freezeDefined (by simp [hname.1]) ?_ (hasFieldOutside_of_hasExactFields hexact)
            simp only [List.forall_mem_cons, List.not_mem_nil, false_implies, implies_true, and_true]
            exact ⟨hreads, reads_of_field houtcome (by simp) trivial⟩
        | rejected => cases h
        | failed =>
            simp only [bind_eq_ok, require_eq_ok] at h
            obtain ⟨-, hexact, failureCode, hfailure, h⟩ := h
            obtain rfl := Except.ok.inj h
            show Copies record (freezeDefined [(name, some (.str id)), ("failureCode", some failureCode)])
            refine copies_freezeDefined (by simp [hname.2]) ?_ (hasFieldOutside_of_hasExactFields hexact)
            simp only [List.forall_mem_cons, List.not_mem_nil, false_implies, implies_true, and_true]
            exact ⟨hreads, reads_of_requireOneOf hfailure⟩
    | _ => simp [hid] at h
  respects := by
    intro a b hsame hlength fields h
    refine .inl ?_
    rw [← h]
    simp only [registeredDetails, requireOneOf, hsame.field, hsame.hasExactFields hlength]

theorem copies_nil {record : Fields} (h : hasFieldOutside [] record = false) : Copies record [] := by
  show Copies record (freezeDefined [])
  exact copies_freezeDefined (by simp) (by simp) h

theorem copying_outcomeDetails : CopyingCheck (outcomeDetails status) where
  copies := by
    intro record fields _ h
    cases status with
    | started =>
        simp only [outcomeDetails, bind_eq_ok, require_eq_ok] at h
        obtain ⟨-, hexact, h⟩ := h
        obtain rfl := Except.ok.inj h
        exact copies_nil (hasFieldOutside_of_hasExactFields hexact)
    | succeeded =>
        simp only [outcomeDetails] at h
        cases houtcome : field record "outcome" with
        | str outcome =>
            simp only [houtcome, bind_eq_ok, require_eq_ok] at h
            obtain ⟨-, hexact, h⟩ := h
            obtain rfl := Except.ok.inj h
            show Copies record (freezeDefined [("outcome", some (.str outcome))])
            refine copies_freezeDefined (by simp) ?_ (hasFieldOutside_of_hasExactFields hexact)
            simp only [List.forall_mem_singleton]
            exact reads_of_field houtcome (by simp) trivial
        | _ => simp [houtcome] at h
    | rejected => cases h
    | failed =>
        simp only [outcomeDetails, bind_eq_ok, require_eq_ok] at h
        obtain ⟨-, hexact, failureCode, hfailure, h⟩ := h
        obtain rfl := Except.ok.inj h
        show Copies record (freezeDefined [("failureCode", some failureCode)])
        refine copies_freezeDefined (by simp) ?_ (hasFieldOutside_of_hasExactFields hexact)
        simp only [List.forall_mem_singleton]
        exact reads_of_requireOneOf hfailure
  respects := by
    intro a b hsame hlength fields h
    refine .inl ?_
    rw [← h]
    simp only [outcomeDetails, requireOneOf, hsame.field, hsame.hasExactFields hlength]

theorem copying_scheduleWakeAlarmDetails (hstatus : status ≠ .succeeded) :
    CopyingCheck (scheduleWakeAlarmDetails status) := by
  cases status with
  | started =>
      refine ⟨fun {record fields} _ h => ?_, fun {a b} hsame _ {fields} h => .inl ?_⟩
      · simp only [scheduleWakeAlarmDetails, bind_eq_ok, assertAllowedKeys_eq_ok] at h
        obtain ⟨-, hallowed, scheduledFor, hscheduled, h⟩ := h
        obtain rfl := Except.ok.inj h
        show Copies record (freezeDefined [("scheduledFor", some scheduledFor)])
        refine copies_freezeDefined (by simp) ?_ hallowed
        simp only [List.forall_mem_singleton]
        exact reads_of_requireTimestampField hscheduled
      · rw [← h]
        simp only [scheduleWakeAlarmDetails, assertAllowedKeys, requireTimestampField, hsame.field,
          hsame.hasFieldOutside]
  | succeeded => exact absurd rfl hstatus
  | rejected => exact copying_failureDetails
  | failed => exact copying_failureDetails

theorem copying_cancelWakeAlarmDetails (hstatus : status ≠ .succeeded) :
    CopyingCheck (cancelWakeAlarmDetails status) := by
  cases status with
  | started =>
      refine ⟨fun {record fields} _ h => ?_, fun {a b} hsame _ {fields} h => .inl ?_⟩
      · simp only [cancelWakeAlarmDetails, bind_eq_ok, assertAllowedKeys_eq_ok] at h
        obtain ⟨-, hallowed, h⟩ := h
        obtain rfl := Except.ok.inj h
        exact copies_nil hallowed
      · rw [← h]
        simp only [cancelWakeAlarmDetails, assertAllowedKeys, hsame.hasFieldOutside]
  | succeeded => exact absurd rfl hstatus
  | rejected => exact copying_failureDetails
  | failed => exact copying_failureDetails

theorem copying_requestMachineShutdownDetails : CopyingCheck (requestMachineShutdownDetails status) := by
  cases status with
  | started =>
      refine ⟨fun {record fields} _ h => ?_, fun {a b} hsame _ {fields} h => .inl ?_⟩
      · simp only [requestMachineShutdownDetails, bind_eq_ok, assertAllowedKeys_eq_ok] at h
        obtain ⟨-, hallowed, h⟩ := h
        obtain rfl := Except.ok.inj h
        exact copies_nil hallowed
      · rw [← h]
        simp only [requestMachineShutdownDetails, assertAllowedKeys, hsame.hasFieldOutside]
  | succeeded =>
      refine ⟨fun {record fields} _ h => ?_, fun {a b} hsame hlength {fields} h => .inl ?_⟩
      · simp only [requestMachineShutdownDetails, bind_eq_ok, require_eq_ok, Bool.and_eq_true,
          decide_eq_true_eq] at h
        obtain ⟨-, ⟨hexact, haccepted⟩, h⟩ := h
        obtain rfl := Except.ok.inj h
        show Copies record (freezeDefined [("accepted", some (.bool true))])
        refine copies_freezeDefined (by simp) ?_ (hasFieldOutside_of_hasExactFields hexact)
        simp only [List.forall_mem_singleton]
        exact reads_of_field haccepted (by simp) trivial
      · rw [← h]
        simp only [requestMachineShutdownDetails, hsame.field, hsame.hasExactFields hlength]
  | rejected => exact copying_failureDetails
  | failed => exact copying_failureDetails

theorem copying_occurrenceDetails : CopyingCheck occurrenceDetails where
  copies := by
    intro record fields _ h
    simp only [occurrenceDetails, bind_eq_ok, assertAllowedKeys_eq_ok] at h
    obtain ⟨-, hallowed, scheduledFor, hscheduled, wakeScheduledFor, hwake, h⟩ := h
    obtain rfl := Except.ok.inj h
    show Copies record (freezeDefined [("scheduledFor", some scheduledFor),
      ("wakeScheduledFor", some wakeScheduledFor)])
    refine copies_freezeDefined (by simp) ?_ hallowed
    simp only [List.forall_mem_cons, List.not_mem_nil, false_implies, implies_true, and_true]
    exact ⟨reads_of_requireTimestampField hscheduled, reads_of_requireTimestampField hwake⟩
  respects := by
    intro a b hsame _ fields h
    refine .inl ?_
    rw [← h]
    simp only [occurrenceDetails, assertAllowedKeys, requireTimestampField, hsame.field,
      hsame.hasFieldOutside]

theorem copying_prepareMachineShutdownDetails : CopyingCheck (prepareMachineShutdownDetails status) := by
  by_cases hstarted : status = .started
  · rw [hstarted]
    exact copying_occurrenceDetails
  · refine ⟨fun {record fields} hnodup h => ?_, fun {a b} hsame _ {fields} h => .inl ?_⟩
    · simp only [prepareMachineShutdownDetails, if_neg hstarted, bind_eq_ok, assertAllowedKeys_eq_ok] at h
      obtain ⟨-, hallowed, preparationOutcome, houtcome, blockerCodes, hblockers, completedStepCount,
        hcount, failureCode, hfailure, h⟩ := h
      by_cases hfailed : status = .failed
      · rw [if_pos hfailed] at h
        exact copying_failureDetails.copies hnodup h
      · rw [if_neg hfailed] at h
        simp only [bind_eq_ok] at h
        obtain ⟨-, -, -, -, h⟩ := h
        obtain rfl := Except.ok.inj h
        refine copies_freezeDefined (by simp) ?_ hallowed
        simp only [List.forall_mem_cons, List.not_mem_nil, false_implies, implies_true, and_true]
        exact ⟨reads_optionalOneOf houtcome, reads_optionalBlockerCodes hblockers,
          reads_completedStepCount hallowed (by decide) hcount, reads_optionalFailureCode hfailure⟩
    · rw [← h]
      simp only [prepareMachineShutdownDetails, if_neg hstarted, assertAllowedKeys,
        optionalPreparationOutcome, optionalBlockerCodes, optionalCount, optionalFailureCode, optional,
        requireOneOf, requireFailureCode, failureDetails, hsame.field, hsame.hasOwn,
        hsame.hasFieldOutside]

theorem copying_executeMachineShutdownDetails : CopyingCheck (executeMachineShutdownDetails status) := by
  by_cases hstarted : status = .started
  · rw [hstarted]
    exact copying_occurrenceDetails
  · refine ⟨fun {record fields} hnodup h => ?_, fun {a b} hsame _ {fields} h => .inl ?_⟩
    · simp only [executeMachineShutdownDetails, if_neg hstarted, bind_eq_ok, assertAllowedKeys_eq_ok] at h
      obtain ⟨-, hallowed, h⟩ := h
      by_cases hfailed : status = .failed
      · rw [if_pos hfailed] at h
        exact copying_failureDetails.copies hnodup h
      · rw [if_neg hfailed] at h
        simp only [bind_eq_ok] at h
        obtain ⟨executionOutcome, hexecution, preparationOutcome, hpreparation, wakeMutationOutcome,
          hwake, shutdownAccepted, haccepted, failureCode, hfailure, blockerCodes, hblockers, h⟩ := h
        have hfields : fields = freezeDefined [("executionOutcome", some executionOutcome),
            ("preparationOutcome", preparationOutcome), ("wakeMutationOutcome", wakeMutationOutcome),
            ("shutdownAccepted", shutdownAccepted), ("failureCode", failureCode),
            ("blockerCodes", blockerCodes)] := by
          split_ifs at h
          · simp only [bind_eq_ok] at h
            obtain ⟨-, -, h⟩ := h
            exact (Except.ok.inj h).symm
          · simp only [bind_eq_ok] at h
            obtain ⟨-, -, -, -, -, -, -, -, h⟩ := h
            exact (Except.ok.inj h).symm
        rw [hfields]
        refine copies_freezeDefined (by simp) ?_ hallowed
        simp only [List.forall_mem_cons, List.not_mem_nil, false_implies, implies_true, and_true]
        exact ⟨reads_of_requireOneOf hexecution, reads_optionalOneOf hpreparation,
          reads_optionalOneOf hwake, reads_optionalAccepted haccepted,
          reads_optionalFailureCode hfailure, reads_optionalBlockerCodes hblockers⟩
    · rw [← h]
      simp only [executeMachineShutdownDetails, if_neg hstarted, assertAllowedKeys,
        optionalPreparationOutcome, optionalBlockerCodes, optionalAccepted, optionalFailureCode,
        optional, requireOneOf, requireFailureCode, failureDetails, hsame.field, hsame.hasOwn,
        hsame.hasFieldOutside]

theorem copying_machinePowerSchedulerDetails : CopyingCheck (machinePowerSchedulerDetails status) := by
  by_cases hstarted : status = .started
  · refine ⟨fun {record fields} _ h => ?_, fun {a b} hsame _ {fields} h => .inl ?_⟩
    · simp only [machinePowerSchedulerDetails, if_pos hstarted, bind_eq_ok, assertAllowedKeys_eq_ok] at h
      obtain ⟨-, hallowed, tickedThrough, hticked, h⟩ := h
      obtain rfl := Except.ok.inj h
      show Copies record (freezeDefined [("tickedThrough", some tickedThrough)])
      refine copies_freezeDefined (by simp) ?_ hallowed
      simp only [List.forall_mem_singleton]
      exact reads_of_requireTimestampField hticked
    · rw [← h]
      simp only [machinePowerSchedulerDetails, if_pos hstarted, assertAllowedKeys,
        requireTimestampField, hsame.field, hsame.hasFieldOutside]
  · refine ⟨fun {record fields} hnodup h => ?_, fun {a b} hsame _ {fields} h => .inl ?_⟩
    · simp only [machinePowerSchedulerDetails, if_neg hstarted, bind_eq_ok, assertAllowedKeys_eq_ok] at h
      obtain ⟨-, hallowed, h⟩ := h
      by_cases hfailed : status = .failed
      · rw [if_pos hfailed] at h
        exact copying_failureDetails.copies hnodup h
      · rw [if_neg hfailed] at h
        simp only [bind_eq_ok] at h
        obtain ⟨schedulerOutcome, houtcome, completedThrough, hcompleted, tickedThrough, hticked,
          occurrenceCount, hcount, complete, hcomplete, failureCode, hfailure, -, -, -, -, h⟩ := h
        obtain rfl := Except.ok.inj h
        refine copies_freezeDefined (by simp) ?_ hallowed
        simp only [List.forall_mem_cons, List.not_mem_nil, false_implies, implies_true, and_true]
        exact ⟨reads_of_requireOneOf houtcome, reads_optionalTimestamp hcompleted,
          reads_optionalTimestamp hticked, reads_occurrenceCount hallowed (by decide) hcount,
          reads_optionalBoolean hcomplete, reads_optionalFailureCode hfailure⟩
    · rw [← h]
      simp only [machinePowerSchedulerDetails, if_neg hstarted, assertAllowedKeys,
        requireTimestampField, optionalCount, optionalBoolean, optionalFailureCode, optional,
        requireOneOf, requireFailureCode, failureDetails, hsame.field, hsame.hasOwn,
        hsame.hasFieldOutside]

theorem copying_createEventHistoryOperationalDetails :
    CopyingCheck (createEventHistoryOperationalDetails status) := by
  cases status with
  | started =>
      refine ⟨fun {record fields} _ h => ?_, fun {a b} hsame _ {fields} h => .inl ?_⟩
      · simp only [createEventHistoryOperationalDetails, bind_eq_ok, assertAllowedKeys_eq_ok] at h
        obtain ⟨-, hallowed, h⟩ := h
        obtain ⟨rfl, hreads⟩ := boundedCounts_eq_ok h
        refine copies_freezeDefined (by simp) (fun f hf => ?_) hallowed
        obtain ⟨name, hname, rfl⟩ := List.mem_map.mp hf
        exact hreads name hname
      · rw [← h]
        simp only [createEventHistoryOperationalDetails, assertAllowedKeys, hsame.hasFieldOutside,
          hsame.boundedCounts]
  | succeeded =>
      refine ⟨fun {record fields} hnodup h => ?_, fun {a b} hsame _ {fields} h => .inr ?_⟩
      · obtain ⟨rfl, hflat⟩ := flat_of_operationalDetails hnodup h
        refine ⟨⟨hnodup, fun f hf => ⟨lookup_of_mem hnodup hf, fun v hv => ?_⟩⟩, fun _ => rfl⟩
        rw [← Option.some.inj hv]
        exact hflat f hf
      · -- the result is the record itself, so only the checks before it carry over
        simp only [createEventHistoryOperationalDetails, bind_eq_ok, assertAllowedKeys, require_eq_ok,
          hsame.field, hsame.hasOwn, hsame.hasFieldOutside, hsame.boundedCounts] at h ⊢
        obtain ⟨u, hallowed, v, houtcome, counts, hcounts, w, hexport, h⟩ := h
        obtain rfl := Except.ok.inj h
        exact ⟨rfl, u, hallowed, v, houtcome, counts, hcounts, w, hexport, rfl⟩
  | rejected => exact copying_failureDetails
  | failed => exact copying_failureDetails

/-! ### The two checks without a check of the names -/

theorem selecting_scheduleWakeAlarmDetails : SelectingCheck (scheduleWakeAlarmDetails .succeeded) where
  selects := by
    intro record fields h
    simp only [scheduleWakeAlarmDetails, bind_eq_ok] at h
    obtain ⟨scheduledFor, hscheduled, mutationOutcome, houtcome, h⟩ := h
    obtain rfl := Except.ok.inj h
    refine ⟨by simp, ?_⟩
    simp only [List.forall_mem_cons, List.not_mem_nil, false_implies, implies_true, and_true]
    exact ⟨reads_of_requireTimestampField hscheduled, reads_of_requireOneOf houtcome⟩
  respects := by
    intro a b fields h hfields
    simp only [scheduleWakeAlarmDetails, bind_eq_ok] at h ⊢
    obtain ⟨scheduledFor, hscheduled, mutationOutcome, houtcome, h⟩ := h
    obtain rfl := Except.ok.inj h
    simp only [List.forall_mem_cons, List.not_mem_nil, false_implies, implies_true, and_true] at hfields
    refine ⟨scheduledFor, ?_, mutationOutcome, ?_, rfl⟩
    · rw [requireTimestampField_eq_ok] at hscheduled ⊢
      obtain ⟨t, -, rfl⟩ := hscheduled
      exact ⟨t, by rw [field, hfields.1]; rfl, rfl⟩
    · rw [requireOneOf_eq_ok] at houtcome ⊢
      obtain ⟨text, htext, -, rfl⟩ := houtcome
      exact ⟨text, htext, by rw [field, hfields.2]; rfl, rfl⟩

theorem selecting_cancelWakeAlarmDetails : SelectingCheck (cancelWakeAlarmDetails .succeeded) where
  selects := by
    intro record fields h
    simp only [cancelWakeAlarmDetails, bind_eq_ok] at h
    obtain ⟨mutationOutcome, houtcome, h⟩ := h
    obtain rfl := Except.ok.inj h
    refine ⟨by simp, ?_⟩
    simp only [List.forall_mem_singleton]
    exact reads_of_requireOneOf houtcome
  respects := by
    intro a b fields h hfields
    simp only [cancelWakeAlarmDetails, bind_eq_ok] at h ⊢
    obtain ⟨mutationOutcome, houtcome, h⟩ := h
    obtain rfl := Except.ok.inj h
    simp only [List.forall_mem_singleton] at hfields
    refine ⟨mutationOutcome, ?_, rfl⟩
    rw [requireOneOf_eq_ok] at houtcome ⊢
    obtain ⟨text, htext, -, rfl⟩ := houtcome
    exact ⟨text, htext, by rw [field, hfields]; rfl, rfl⟩

/-! ## The check of the details -/

/-- The operations on the wake alarm do not look for other fields when they have succeeded. -/
def isLoose (operation : AdministrativeEventOperation) (status : AdministrativeEventStatus) : Bool :=
  (operation = .scheduleWakeAlarm || operation = .cancelWakeAlarm) && status = .succeeded

/-- **The details of every operation** are checked by a copying check, or by a selecting one. -/
theorem createDetails_obj (operation : AdministrativeEventOperation)
    (status : AdministrativeEventStatus) :
    ∃ check, (if isLoose operation status then SelectingCheck check else CopyingCheck check) ∧
      ∀ record, createDetails operation status (.obj record) = some <$> check record := by
  have hbackup : CopyingCheck (backupDetails status) :=
    copying_registeredDetails "targetId" (by decide) safeFailureCodes
  have hservice : CopyingCheck (serviceDetails status) :=
    copying_registeredDetails "serviceId" (by decide) ["service_failed"]
  have hhistory := @copying_createEventHistoryOperationalDetails status
  have houtcome := @copying_outcomeDetails status
  have hscheduler := @copying_machinePowerSchedulerDetails status
  cases operation with
  | authorizeAdministrativeOperation => exact ⟨_, copying_authorizationDetails, fun _ => rfl⟩
  | scheduleWakeAlarm =>
      refine ⟨scheduleWakeAlarmDetails status, ?_, fun _ => rfl⟩
      by_cases hstatus : status = .succeeded
      · rw [hstatus]
        exact selecting_scheduleWakeAlarmDetails
      · rw [if_neg (by simp [isLoose, hstatus])]
        exact copying_scheduleWakeAlarmDetails hstatus
  | cancelWakeAlarm =>
      refine ⟨cancelWakeAlarmDetails status, ?_, fun _ => rfl⟩
      by_cases hstatus : status = .succeeded
      · rw [hstatus]
        exact selecting_cancelWakeAlarmDetails
      · rw [if_neg (by simp [isLoose, hstatus])]
        exact copying_cancelWakeAlarmDetails hstatus
  | requestMachineShutdown => exact ⟨_, copying_requestMachineShutdownDetails, fun _ => rfl⟩
  | prepareMachineShutdownOccurrence =>
      exact ⟨_, copying_prepareMachineShutdownDetails, fun _ => rfl⟩
  | executeMachineShutdownOccurrence =>
      exact ⟨_, copying_executeMachineShutdownDetails, fun _ => rfl⟩
  | runMachinePowerSchedulerTick | readAdministrativeSecurityPosture =>
      exact ⟨_, hscheduler, fun _ => rfl⟩
  | startRegisteredService | stopRegisteredService | restartRegisteredService
  | updateRegisteredServiceAvailability | removeRegisteredServiceAvailability
  | updateRegisteredServiceSchedule | removeRegisteredServiceSchedule =>
      exact ⟨_, hservice, fun _ => rfl⟩
  | updateMachineOperatingPolicy | removeMachineOperatingPolicy | runBackupSchedulerTick =>
      exact ⟨_, houtcome, fun _ => rfl⟩
  | runRegisteredBackup | updateBackupSchedule | removeBackupSchedule | updateBackupRetention
  | runBackupRetentionPrune => exact ⟨_, hbackup, fun _ => rfl⟩
  | _ => exact ⟨_, hhistory, fun _ => rfl⟩

variable {operation : AdministrativeEventOperation}

/-- The details are fields of the record, and all of them unless the check is loose. -/
theorem createDetails_selects {record : Fields} {details : Option Fields}
    (hnodup : (record.map Prod.fst).Nodup)
    (h : createDetails operation status (.obj record) = .ok details) :
    ∃ fields, details = some fields ∧ Selects record fields ∧
      (isLoose operation status = false → SameFields fields record) := by
  obtain ⟨check, hkind, hcheck⟩ := createDetails_obj operation status
  rw [hcheck] at h
  cases hfields : check record with
  | error code => simp [hfields] at h
  | ok fields =>
      obtain rfl : some fields = details := by simpa [hfields] using h
      refine ⟨fields, rfl, ?_⟩
      by_cases hloose : isLoose operation status = true
      · rw [if_pos hloose] at hkind
        exact ⟨hkind.selects hfields, fun hnot => by simp [hloose] at hnot⟩
      · rw [if_neg hloose] at hkind
        have hcopies := hkind.copies hnodup hfields
        exact ⟨hcopies.selects, fun _ => hcopies.same⟩

/-- A record with the same fields is accepted, and if the check is loose, so is one with more. -/
theorem createDetails_accepts {a b fields : Fields} (ha : (a.map Prod.fst).Nodup)
    (hb : (b.map Prod.fst).Nodup) (h : createDetails operation status (.obj a) = .ok (some fields))
    (hfields : ∀ f ∈ fields, b.lookup f.1 = some f.2)
    (hall : isLoose operation status = false → SameFields a b) :
    ∃ made, createDetails operation status (.obj b) = .ok (some made) ∧ SameFields made fields ∧
      (made = fields ∨ fields = a ∧ made = b) := by
  obtain ⟨check, hkind, hcheck⟩ := createDetails_obj operation status
  rw [hcheck] at h ⊢
  cases hmade : check a with
  | error code => simp [hmade] at h
  | ok made =>
      obtain rfl : made = fields := by simpa [hmade] using h
      by_cases hloose : isLoose operation status = true
      · rw [if_pos hloose] at hkind
        exact ⟨made, by rw [hkind.respects hmade hfields]; rfl, fun _ => rfl, .inl rfl⟩
      · rw [if_neg hloose] at hkind
        have hsame := hall (by simpa using hloose)
        have hlength : a.length = b.length := (perm_of_lookup ha hb hsame).length_eq
        rcases hkind.respects hsame hlength hmade with heq | ⟨hself, heq⟩
        · exact ⟨made, by rw [heq]; rfl, fun _ => rfl, .inl rfl⟩
        · refine ⟨b, by rw [heq]; rfl, fun name => ?_, .inr ⟨hself, rfl⟩⟩
          rw [hself, hsame name]

/-- **The check of the details** takes what it gives back. -/
theorem createDetails_again {record fields : Fields} (hnodup : (record.map Prod.fst).Nodup)
    (h : createDetails operation status (.obj record) = .ok (some fields)) :
    createDetails operation status (.obj fields) = .ok (some fields) := by
  obtain ⟨made, hmade, hselects, hall⟩ := createDetails_selects hnodup h
  obtain rfl := Option.some.inj hmade
  have hlookup : ∀ f ∈ fields, fields.lookup f.1 = some f.2 := fun f hf => lookup_of_mem hselects.1 hf
  obtain ⟨made, hagain, -, hsame⟩ := createDetails_accepts hnodup hselects.1 h hlookup
    fun hloose name => (hall hloose name).symm
  rcases hsame with rfl | ⟨-, rfl⟩
  · exact hagain
  · exact hagain

end AtlasManager.EventHistory
