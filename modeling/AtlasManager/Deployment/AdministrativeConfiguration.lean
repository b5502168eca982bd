import AtlasManager.Deployment.RuntimeConfiguration

/-!
# AtlasManager.Deployment.AdministrativeConfiguration

The administrative configuration is replaced and rolled back under a transaction journal.

* `run` -- the actions `replace-disabled` and `rollback-disabled`;
* `run_replaceDisabled_iff`, `run_rollbackDisabled_iff` -- when a journal stays only where a managed
  file was changed;
* `journals_iff` -- the four actions of both packages.
-/

namespace AtlasManager.Deployment.AdministrativeConfiguration

open AtlasManager.Lib

def ReplaceConfirmation : String := "confirm_atlas_manager_administrative_configuration_replacement"
def RollbackConfirmation : String := "confirm_atlas_manager_administrative_configuration_rollback"

inductive Action where
  | replaceDisabled
  | rollbackDisabled
  deriving DecidableEq, Repr

def ProfileName : String := "mock-administrative"

structure State where
  schemaVersion : Nat
  profile : String
  configurationSHA256 : String
  applicationVersion : String
  sourceCommit : String
  status : String
  currentGeneration : Nat
  previousGeneration : Nat
  sourceInputSHA256 : String
  previousConfigurationSHA256 : String
  previousSourceInputSHA256 : String
  deriving DecidableEq, Repr

def validState (state : State) : Bool :=
  state.schemaVersion = 1 && state.profile = ProfileName && state.status = "installed" &&
    safeHash state.configurationSHA256 && safeHash state.sourceInputSHA256 &&
    safeVersion state.applicationVersion && safeCommit state.sourceCommit &&
    state.currentGeneration ≠ 0 && state.previousGeneration < state.currentGeneration &&
    if state.previousGeneration = 0 then
      state.previousConfigurationSHA256 = "" && state.previousSourceInputSHA256 = ""
    else
      safeHash state.previousConfigurationSHA256 && safeHash state.previousSourceInputSHA256

/-- The administrative input, and what is made of an input. -/
structure Administration (Input : Type) where
  input : FileEntry
  validateInput : Bytes → Option Input
  environment : Input → Except String Bytes
  verifyTypeScriptConfiguration : Bytes → Except String Unit

section Actions

variable {Input : Type} (host : Host) (format : StateFormat State)
  (administration : Administration Input)

/-! ## Reading -/

def readState (s : System) : Except String (Option State) :=
  match (s.files .state).read with
  | .error true => .ok none
  | .error false => .error "configuration_state_invalid"
  | .ok data =>
    match format.decode data with
    | none => .error "configuration_state_invalid"
    | some state =>
      if validState state then .ok (some state) else .error "configuration_state_invalid"

/-- The state, where there has to be one. -/
def requireState (code : String) (s : System) : Except String State :=
  match readState format s with
  | .ok (some state) => .ok state
  | _ => .error code

def readFile (entry : FileEntry) (code : String) : Except String Bytes :=
  match entry.read with
  | .ok data => .ok data
  | .error _ => .error code

/-- A file with this digest. -/
def readDigest (entry : FileEntry) (digest code : String) : Except String Bytes := do
  let data ← readFile entry code
  refuseIf (host.sha256 data ≠ digest) code
  return data

def validateInput (data : Bytes) (code : String) : Except String Input :=
  match administration.validateInput data with
  | some input => .ok input
  | none => .error code

/-- The environment of an input, with this digest. -/
def expectEnvironment (input : Input) (digest code : String) : Except String Bytes :=
  match administration.environment input with
  | .ok expected => do
    refuseIf (host.sha256 expected ≠ digest) code
    return expected
  | .error _ => .error code

def validateMetadata (mode gid : Nat) : FileEntry → Except String Unit
  | .present info _ =>
    if info.kind ≠ .regular || info.permissions ≠ mode then .error "configuration_unsafe"
    else if host.applyOwnership && (info.uid ≠ 0 || info.gid ≠ gid || info.links ≠ 1) then
      .error "configuration_unsafe"
    else .ok ()
  | _ => .error "configuration_unsafe"

def identity : Except String Identity :=
  match host.accounts with
  | some identity => .ok identity
  | none => .error "identity_not_ready"

def primaryGID : Nat := (host.identityState.map (·.primaryGroupID)).getD 0

def validateBase : Except String Unit := do
  refuseIf (¬ host.bundle) "bundle_invalid"
  refuseIf (¬ host.currentDeployment) "deployment_not_ready"
  refuseIf (host.enableLink = .found) "service_enabled"
  refuseIf (host.enableLink = .unknown) "service_state_unsafe"
  refuseIf (host.runtimeActivity = .found) "service_active"
  refuseIf (host.runtimeActivity = .unknown) "service_state_unsafe"
  let identity ← identity host
  refuseIf (¬ host.verifyManagedDisabled identity) "deployment_not_ready"

def verifyInstalled (s : System) : Except String Unit := do
  let state ← requireState format "configuration_state_invalid" s
  let _ ← readDigest host (s.files .environment) state.configurationSHA256 "configuration_modified"
  validateMetadata host 0o640 (primaryGID host) (s.files .environment)
  let currentInput ←
    readDigest host (s.files .currentInput) state.sourceInputSHA256 "configuration_input_modified"
  let _ ← validateInput administration currentInput "configuration_input_modified"

/-- The checks of `Run` in front of an action. -/
def guards (action : Action) (confirmation : String) (s : System) : Except String Unit := do
  refuseIf (host.effectiveUID ≠ 0) "effective_root_required"
  refuseIf (host.platform ≠ "linux" ∨ host.architecture ≠ "amd64") "unsupported_platform"
  refuseIf (action = .replaceDisabled ∧ confirmation ≠ ReplaceConfirmation) "confirmation_invalid"
  refuseIf (action = .rollbackDisabled ∧ confirmation ≠ RollbackConfirmation) "confirmation_invalid"
  validateBase host
  verifyInstalled host format administration s
  let _ ← requireState format "configuration_state_invalid" s
  refuseIf s.journal "configuration_journal_present"
  match host.lock with
  | none => .ok ()
  | some code => .error code

/-! ## Writing -/

/-- The file takes the place of the old one before the directory is synced. -/
def writeAtomic (file : ManagedFile) (content : Bytes) (mode gid : Nat) : Configuring Unit := do
  let owner := if host.applyOwnership then (0, gid) else host.creator
  replaceFile host file ⟨.regular, mode, 1, owner.1, owner.2⟩ content "configuration_write_failed"
  perform host (.sync file) "configuration_write_failed"

def writeJournal : Configuring Unit := do
  perform host .makeDirectory "configuration_journal_write_failed"
  perform host .writeJournal "configuration_write_failed"
  modify fun s => { s with journal := true }
  perform host .syncJournal "configuration_write_failed"

def writeState (state : State) (gid : Nat) : Configuring Unit := do
  perform host .makeDirectory "configuration_state_write_failed"
  writeAtomic host .state (format.encode state) 0o600 gid

/-- A step that reports this code when it fails. -/
def reporting (code : String) (p : Configuring Unit) : Configuring Unit :=
  p.recover fun _ => throw code

/-! ## Actions -/

structure Replacement where
  current : Bytes
  state : State
  currentInput : Bytes
  inputBytes : Bytes
  next : Bytes

/-- The checks of `replace` between the journal and the first write. -/
def checkReplacement (s : System) : Except String Replacement := do
  let current ← readFile (s.files .environment) "configuration_modified"
  let state ← requireState format "configuration_state_invalid" s
  refuseIf (host.sha256 current ≠ state.configurationSHA256) "configuration_modified"
  let currentInput ←
    readDigest host (s.files .currentInput) state.sourceInputSHA256 "configuration_input_modified"
  let inputBytes ← readFile administration.input "administrative_input_invalid"
  let input ← validateInput administration inputBytes "administrative_input_invalid"
  let next ← administration.environment input
  administration.verifyTypeScriptConfiguration next
  return ⟨current, state, currentInput, inputBytes, next⟩

/-- What `replace` does once the current input is stored as the previous one. -/
def completeReplace (replacement : Replacement) : Configuring String := do
  let ⟨current, state, _, inputBytes, next⟩ := replacement
  let failed := "configuration_replace_failed"
  reporting failed (writeAtomic host .previousEnvironment current 0o640 (primaryGID host))
  reporting failed (writeAtomic host .environment next 0o640 (primaryGID host))
  let state : State := { state with
    previousGeneration := state.currentGeneration
    currentGeneration := (state.currentGeneration + 1) % 2 ^ 64
    previousConfigurationSHA256 := state.configurationSHA256
    previousSourceInputSHA256 := state.sourceInputSHA256
    configurationSHA256 := host.sha256 next
    sourceInputSHA256 := host.sha256 inputBytes }
  reporting failed (writeAtomic host .currentInput inputBytes 0o600 (primaryGID host))
  reporting failed (writeState host format state (primaryGID host))
  Stateful.check (verifyInstalled host format administration)
  (removeJournal host "").ignore
  return "replaced"

def replace : Configuring String := do
  writeJournal host
  let replacement ← Stateful.check (checkReplacement host format administration)
  let failed := "configuration_replace_failed"
  perform host .makeDirectory failed
  reporting failed
    (writeAtomic host .previousInput replacement.currentInput 0o600 (primaryGID host))
  completeReplace host format administration replacement

structure Previous where
  state : State
  previous : Bytes
  previousInput : Bytes
  current : Bytes
  currentInput : Bytes

/-- The checks of `rollback` between the journal and the first write. -/
def checkPrevious (s : System) : Except String Previous := do
  let state ← requireState format "previous_generation_unavailable" s
  refuseIf (state.previousGeneration = 0 ∨ state.previousConfigurationSHA256 = "")
    "previous_generation_unavailable"
  let previous ← readDigest host (s.files .previousEnvironment) state.previousConfigurationSHA256
    "previous_generation_modified"
  let previousInput ← readDigest host (s.files .previousInput) state.previousSourceInputSHA256
    "previous_generation_modified"
  let parsedPreviousInput ←
    validateInput administration previousInput "previous_generation_invalid"
  let expectedPrevious ← expectEnvironment host administration parsedPreviousInput
    state.previousConfigurationSHA256 "previous_generation_modified"
  administration.verifyTypeScriptConfiguration expectedPrevious
  let current ←
    readDigest host (s.files .environment) state.configurationSHA256 "configuration_modified"
  let currentInput ←
    readDigest host (s.files .currentInput) state.sourceInputSHA256 "configuration_input_modified"
  let parsedCurrentInput ←
    validateInput administration currentInput "configuration_input_modified"
  let _ ← expectEnvironment host administration parsedCurrentInput state.configurationSHA256
    "configuration_input_modified"
  return ⟨state, previous, previousInput, current, currentInput⟩

/-- What `rollback` does once the current input is stored as the previous one. -/
def completeRollback (previous : Previous) : Configuring String := do
  let ⟨state, previous, previousInput, current, _⟩ := previous
  let failed := "configuration_rollback_failed"
  reporting failed (writeAtomic host .previousEnvironment current 0o640 (primaryGID host))
  reporting failed (writeAtomic host .currentInput previousInput 0o600 (primaryGID host))
  reporting failed (writeAtomic host .environment previous 0o640 (primaryGID host))
  let state : State := { state with
    previousConfigurationSHA256 := state.configurationSHA256
    configurationSHA256 := state.previousConfigurationSHA256
    previousSourceInputSHA256 := state.sourceInputSHA256
    sourceInputSHA256 := state.previousSourceInputSHA256
    previousGeneration := state.currentGeneration
    currentGeneration := state.previousGeneration }
  reporting failed (writeState host format state (primaryGID host))
  Stateful.check (verifyInstalled host format administration)
  (removeJournal host "").ignore
  return "rolled_back"

def rollback : Configuring String := do
  writeJournal host
  let previous ← Stateful.check (checkPrevious host format administration)
  reporting "configuration_rollback_failed"
    (writeAtomic host .previousInput previous.currentInput 0o600 (primaryGID host))
  completeRollback host format administration previous

/-- The result of the report, or the code for which the action is blocked. -/
def run (action : Action) (confirmation : String) : Configuring String := do
  Stateful.check (guards host format administration action confirmation)
  match action with
  | .replaceDisabled => replace host format administration
  | .rollbackDisabled => rollback host format administration

end Actions

/-! ## The checks -/

section Checks

variable {Input : Type} {host : Host} {format : StateFormat State}
  {administration : Administration Input}

theorem requireState_eq_ok {code : String} {s : System} {state : State} :
    requireState format code s = .ok state ↔ readState format s = .ok (some state) := by
  rw [requireState]
  split
  · next found hfound => rw [hfound, Except.ok.injEq, Except.ok.injEq, Option.some.injEq]
  · next hnone => exact iff_of_false (by simp) (hnone state)

theorem readFile_eq_ok {entry : FileEntry} {code : String} {data : Bytes} :
    readFile entry code = .ok data ↔ entry.read = .ok data := by
  rw [readFile]
  split
  · next found hfound => rw [hfound, Except.ok.injEq, Except.ok.injEq]
  · next hfound => simp [hfound]

theorem readDigest_eq_ok {entry : FileEntry} {digest code : String} {data : Bytes} :
    readDigest host entry digest code = .ok data ↔
      entry.read = .ok data ∧ host.sha256 data = digest := by
  simp only [readDigest, bind_eq_ok, readFile_eq_ok, refuseIf_eq_ok, not_not]
  constructor
  · rintro ⟨found, hread, _, hdigest, hsame⟩
    obtain rfl := Except.ok.inj hsame
    exact ⟨hread, hdigest⟩
  · rintro ⟨hread, hdigest⟩
    exact ⟨data, hread, (), hdigest, rfl⟩

theorem validateInput_eq_ok {data : Bytes} {code : String} {input : Input} :
    validateInput administration data code = .ok input ↔
      administration.validateInput data = some input := by
  rw [validateInput]
  split
  · next found hfound => rw [hfound, Except.ok.injEq, Option.some.injEq]
  · next hfound => simp [hfound]

/-- The input that is to be installed can be read, is valid, and its environment is accepted. -/
def InputAccepted (administration : Administration Input) : Prop :=
  ∃ data input next, administration.input.read = .ok data ∧
    administration.validateInput data = some input ∧
    administration.environment input = .ok next ∧
    administration.verifyTypeScriptConfiguration next = .ok ()

/-- What the guards have seen. -/
structure Guarded (host : Host) (format : StateFormat State) (s : System) (state : State)
    (current currentInput : Bytes) : Prop where
  noJournal : s.journal = false
  readState_eq : readState format s = .ok (some state)
  read_environment : (s.files .environment).read = .ok current
  sha256_current : host.sha256 current = state.configurationSHA256
  read_currentInput : (s.files .currentInput).read = .ok currentInput
  sha256_currentInput : host.sha256 currentInput = state.sourceInputSHA256

theorem of_guards {action : Action} {confirmation : String} {s : System}
    (h : guards host format administration action confirmation s = .ok ()) :
    ∃ state current currentInput, Guarded host format s state current currentInput := by
  rw [guards] at h
  simp only [bind_eq_ok, refuseIf_eq_ok, verifyInstalled, requireState_eq_ok, readDigest_eq_ok] at h
  obtain ⟨_, _, _, _, _, _, _, _, _, _, _, hinstalled, _, _, _, hjournal, _⟩ := h
  obtain ⟨state, hstate, current, ⟨hcurrent, hdigest⟩, _, _, currentInput, ⟨hinput, hsource⟩, _⟩ :=
    hinstalled
  exact ⟨state, current, currentInput, by simpa using hjournal, hstate, hcurrent, hdigest, hinput,
    hsource⟩

theorem checkReplacement_iff {s : System} {state : State} {current currentInput : Bytes}
    (h : Guarded host format s state current currentInput) :
    (∃ replacement, checkReplacement host format administration s = .ok replacement) ↔
      InputAccepted administration := by
  simp only [checkReplacement, bind_eq_ok, refuseIf_eq_ok, requireState_eq_ok, readFile_eq_ok,
    readDigest_eq_ok, validateInput_eq_ok, not_not]
  constructor
  · rintro ⟨_, _, _, _, _, _, _, _, _, data, hdata, input, hinput, next, hnext, _, hverified, _⟩
    exact ⟨data, input, next, hdata, hinput, hnext, hverified⟩
  · rintro ⟨data, input, next, hdata, hinput, hnext, hverified⟩
    exact ⟨_, current, h.read_environment, state, h.readState_eq, (), h.sha256_current, currentInput,
      ⟨h.read_currentInput, h.sha256_currentInput⟩, data, hdata, input, hinput, next, hnext, (),
      hverified, rfl⟩

/-- A stored input is valid, and its environment has this digest. -/
def StoredInput (host : Host) (administration : Administration Input) (data : Bytes)
    (digest : String) (expected : Bytes) : Prop :=
  ∃ input, administration.validateInput data = some input ∧
    administration.environment input = .ok expected ∧ host.sha256 expected = digest

/-- There is a generation to go back to, its files are those that the state describes, its
environment is accepted, and the current input still gives the current environment. -/
def PreviousAccepted (host : Host) (format : StateFormat State)
    (administration : Administration Input) (s : System) : Prop :=
  ∃ state previous previousInput expected currentInput expectedCurrent,
    readState format s = .ok (some state) ∧
    (state.previousGeneration ≠ 0 ∧ state.previousConfigurationSHA256 ≠ "") ∧
    ((s.files .previousEnvironment).read = .ok previous ∧
      host.sha256 previous = state.previousConfigurationSHA256) ∧
    ((s.files .previousInput).read = .ok previousInput ∧
      host.sha256 previousInput = state.previousSourceInputSHA256) ∧
    StoredInput host administration previousInput state.previousConfigurationSHA256 expected ∧
    administration.verifyTypeScriptConfiguration expected = .ok () ∧
    (s.files .currentInput).read = .ok currentInput ∧
    StoredInput host administration currentInput state.configurationSHA256 expectedCurrent

theorem expectEnvironment_eq_ok {input : Input} {digest code : String} {expected : Bytes} :
    expectEnvironment host administration input digest code = .ok expected ↔
      administration.environment input = .ok expected ∧ host.sha256 expected = digest := by
  rw [expectEnvironment]
  cases administration.environment input with
  | error _ => simp
  | ok found =>
      simp only [bind_eq_ok, refuseIf_eq_ok, not_not]
      constructor
      · rintro ⟨_, hdigest, hsame⟩
        obtain rfl := Except.ok.inj hsame
        exact ⟨rfl, hdigest⟩
      · rintro ⟨hsame, hdigest⟩
        obtain rfl := Except.ok.inj hsame
        exact ⟨(), hdigest, rfl⟩

theorem checkPrevious_iff {s : System} {state : State} {current currentInput : Bytes}
    (h : Guarded host format s state current currentInput) :
    (∃ previous, checkPrevious host format administration s = .ok previous) ↔
      PreviousAccepted host format administration s := by
  simp only [checkPrevious, bind_eq_ok, refuseIf_eq_ok, requireState_eq_ok, readDigest_eq_ok,
    validateInput_eq_ok, expectEnvironment_eq_ok, not_or]
  constructor
  · rintro ⟨_, state, hstate, _, hgeneration, previous, hprevious, previousInput, hinput, input,
      hvalid, expected, ⟨hexpected, hdigest⟩, _, hverified, _, _, currentInput, ⟨hcurrent, _⟩,
      parsed, hparsed, expectedCurrent, ⟨henvironment, hsame⟩, _⟩
    exact ⟨state, previous, previousInput, expected, currentInput, expectedCurrent, hstate,
      hgeneration, hprevious, hinput, ⟨input, hvalid, hexpected, hdigest⟩, hverified, hcurrent,
      ⟨parsed, hparsed, henvironment, hsame⟩⟩
  · rintro ⟨found, previous, previousInput, expected, input, expectedCurrent, hstate, hgeneration,
      hprevious, hinput, ⟨parsed, hvalid, hexpected, hdigest⟩, hverified, hcurrent,
      ⟨parsedCurrent, hparsed, henvironment, hsame⟩⟩
    obtain rfl : found = state := by
      rw [h.readState_eq, Except.ok.injEq, Option.some.injEq] at hstate
      exact hstate.symm
    obtain rfl : input = currentInput := by
      rw [h.read_currentInput, Except.ok.injEq] at hcurrent
      exact hcurrent.symm
    exact ⟨_, found, hstate, (), hgeneration, previous, hprevious, previousInput, hinput, parsed,
      hvalid, expected, ⟨hexpected, hdigest⟩, (), hverified, current,
      ⟨h.read_environment, h.sha256_current⟩, input, ⟨hcurrent, h.sha256_currentInput⟩,
      parsedCurrent, hparsed, expectedCurrent, ⟨henvironment, hsame⟩, rfl⟩

end Checks

/-! ## The journal -/

section Journal

variable {Input : Type} {host : Host} {format : StateFormat State}
  {administration : Administration Input} {before : System}

theorem exec_writeJournal_of_noJournal (h : NoJournal host) (s : System) :
    ∃ code, (writeJournal host).exec s = (.error code, s) := by
  rw [writeJournal]
  by_cases hdirectory : host.fails .makeDirectory = true
  · exact ⟨_, Stateful.exec_bind_error (exec_perform_of_fails hdirectory _ _)⟩
  · rw [Stateful.exec_bind_ok (exec_perform hdirectory _ _)]
    exact ⟨_, Stateful.exec_bind_error (exec_perform_of_fails (h.resolve_left hdirectory) _ _)⟩

/-- The journal is in place, even where the action stops because the directory is not synced. -/
theorem exec_writeJournal (h : ¬ NoJournal host) (s : System) :
    (writeJournal host).exec s =
      (if host.fails .syncJournal then .error "configuration_write_failed" else .ok (),
        { s with journal := true }) := by
  obtain ⟨hdirectory, hwrite⟩ := not_or.mp h
  have hplaced : Stateful.exec (modify fun s : System => { s with journal := true }) s =
      ((.ok () : Except String Unit), { s with journal := true }) := rfl
  rw [writeJournal, Stateful.exec_bind_ok (exec_perform hdirectory _ _),
    Stateful.exec_bind_ok (exec_perform hwrite _ _), Stateful.exec_bind_ok hplaced]
  by_cases hsync : host.fails .syncJournal = true
  · rw [exec_perform_of_fails hsync, if_pos hsync]
  · rw [exec_perform hsync, if_neg hsync]

theorem keeps_writeAtomic (file : ManagedFile) (content : Bytes) (mode gid : Nat) :
    Stateful.Keeps (ChangedSince before) (writeAtomic host file content mode gid) :=
  (keeps_replaceFile _ _ _ _).bind fun _ => keeps_perform _ _

theorem keeps_reporting {code : String} {p : Configuring Unit}
    (h : Stateful.Keeps (ChangedSince before) p) :
    Stateful.Keeps (ChangedSince before) (reporting code p) :=
  h.recover fun _ => Stateful.keeps_throw _

theorem keeps_writeState (state : State) (gid : Nat) :
    Stateful.Keeps (ChangedSince before) (writeState host format state gid) :=
  (keeps_perform _ _).bind fun _ => keeps_writeAtomic _ _ _ _

theorem keeps_completeReplace (replacement : Replacement) :
    Stateful.Keeps (ChangedSince before)
      (completeReplace host format administration replacement) := by
  refine (keeps_reporting (keeps_writeAtomic _ _ _ _)).bind fun _ => ?_
  refine (keeps_reporting (keeps_writeAtomic _ _ _ _)).bind fun _ => ?_
  refine (keeps_reporting (keeps_writeAtomic _ _ _ _)).bind fun _ => ?_
  refine (keeps_reporting (keeps_writeState _ _)).bind fun _ => ?_
  refine (Stateful.keeps_check _).bind fun _ => ?_
  exact (keeps_removeJournal _).ignore.bind fun _ => Stateful.keeps_pure _

theorem keeps_completeRollback (previous : Previous) :
    Stateful.Keeps (ChangedSince before)
      (completeRollback host format administration previous) := by
  refine (keeps_reporting (keeps_writeAtomic _ _ _ _)).bind fun _ => ?_
  refine (keeps_reporting (keeps_writeAtomic _ _ _ _)).bind fun _ => ?_
  refine (keeps_reporting (keeps_writeAtomic _ _ _ _)).bind fun _ => ?_
  refine (keeps_reporting (keeps_writeState _ _)).bind fun _ => ?_
  refine (Stateful.keeps_check _).bind fun _ => ?_
  exact (keeps_removeJournal _).ignore.bind fun _ => Stateful.keeps_pure _

/-- What follows the first write of a managed file, whatever fails from there on. -/
theorem storePrevious_iff (hjournal : before.journal = false) (data : Bytes) (mode gid : Nat)
    (code : String) {rest : Unit → Configuring String}
    (hrest : ∀ u, Stateful.Keeps (ChangedSince before) (rest u)) :
    JournalOnlyIfChanged before
        ((reporting code (writeAtomic host .previousInput data mode gid) >>= rest).exec
          { before with journal := true }) ↔
      host.fails (.write .previousInput) = false := by
  by_cases hwrite : host.fails (.write .previousInput) = true
  · have hexec : (reporting code (writeAtomic host .previousInput data mode gid)).exec
        { before with journal := true } = (.error code, { before with journal := true }) := by
      rw [reporting, Stateful.exec, Stateful.recover, writeAtomic,
        Stateful.exec_bind_error (exec_replaceFile_of_fails hwrite _ _ _ _)]
      rfl
    rw [Stateful.exec_bind_error hexec]
    exact iff_of_false (not_journalOnlyIfChanged hjournal _) (by simp [hwrite])
  · rw [Bool.not_eq_true] at hwrite
    obtain ⟨written, hexec, hchanged⟩ := exec_replaceFile hwrite
      ⟨.regular, mode, 1, (if host.applyOwnership then (0, gid) else host.creator).1,
        (if host.applyOwnership then (0, gid) else host.creator).2⟩ data
      "configuration_write_failed" { before with journal := true }
    have hsince : ChangedSince before written := by simp [ChangedSince, hchanged]
    have hstored : ChangedSince before ((writeAtomic host .previousInput data mode gid).exec
        { before with journal := true }).2 := by
      rw [writeAtomic, Stateful.exec_bind_ok hexec]
      exact keeps_perform _ _ _ hsince
    have hreported := Stateful.after_recover hstored fun _ : String =>
      Stateful.keeps_throw (α := Unit) code
    exact iff_of_true (Stateful.after_bind hreported hrest).journalOnlyIfChanged hwrite

/-- The journal in front of the checks and of the first write of a managed file. -/
theorem journaled_iff {α : Type} (hjournal : before.journal = false)
    {check : System → Except String α} (hcheck : check { before with journal := true } = check before)
    {rest : α → Configuring String}
    (hrest : ∀ a, check before = .ok a → ¬ NoJournal host →
      (JournalOnlyIfChanged before ((rest a).exec { before with journal := true }) ↔
        host.fails (.write .previousInput) = false)) :
    JournalOnlyIfChanged before
        ((do writeJournal host; let a ← Stateful.check check; rest a).exec before) ↔
      NoJournal host ∨ host.fails .syncJournal = false ∧ (∃ a, check before = .ok a) ∧
        host.fails (.write .previousInput) = false := by
  by_cases hno : NoJournal host
  · obtain ⟨code, hexec⟩ := exec_writeJournal_of_noJournal hno before
    rw [Stateful.exec_bind_error hexec]
    exact iff_of_true (journalOnlyIfChanged_refl _ _) (.inl hno)
  · rw [or_iff_right hno]
    have hexec := exec_writeJournal hno before
    by_cases hsync : host.fails .syncJournal = true
    · rw [if_pos hsync] at hexec
      rw [Stateful.exec_bind_error hexec]
      exact iff_of_false (not_journalOnlyIfChanged hjournal _) (by simp [hsync])
    · rw [if_neg hsync] at hexec
      rw [Bool.not_eq_true] at hsync
      rw [Stateful.exec_bind_ok hexec, Stateful.exec_check_bind, hcheck, hsync]
      cases hchecked : check before with
      | error code => exact iff_of_false (not_journalOnlyIfChanged hjournal _) (by simp)
      | ok a =>
          dsimp only
          rw [hrest a hchecked hno]
          simp

/-- **`replace-disabled` keeps no journal for nothing** when it is refused, cannot write the
journal, or syncs it, accepts the new input and stores the current one as the previous one. -/
theorem run_replaceDisabled_iff (confirmation : String) :
    JournalOnlyIfChanged before
        ((run host format administration .replaceDisabled confirmation).exec before) ↔
      (∃ code, guards host format administration .replaceDisabled confirmation before =
          .error code) ∨
        NoJournal host ∨
        host.fails .syncJournal = false ∧ InputAccepted administration ∧
          host.fails (.write .previousInput) = false := by
  rw [run, Stateful.exec_check_bind]
  cases hguards : guards host format administration .replaceDisabled confirmation before with
  | error code => exact iff_of_true (journalOnlyIfChanged_refl _ _) (.inl ⟨code, rfl⟩)
  | ok _ =>
      obtain ⟨state, current, currentInput, hguarded⟩ := of_guards hguards
      rw [or_iff_right (by simp), ← checkReplacement_iff hguarded]
      refine journaled_iff hguarded.noJournal rfl fun replacement _ hjournal => ?_
      rw [Stateful.exec_bind_ok (exec_perform (not_or.mp hjournal).1 _ _)]
      exact storePrevious_iff hguarded.noJournal _ _ _ _ fun _ => keeps_completeReplace _

/-- **`rollback-disabled` keeps no journal for nothing** when it is refused, cannot write the
journal, or syncs it, accepts the previous generation and stores the current input. -/
theorem run_rollbackDisabled_iff (confirmation : String) :
    JournalOnlyIfChanged before
        ((run host format administration .rollbackDisabled confirmation).exec before) ↔
      (∃ code, guards host format administration .rollbackDisabled confirmation before =
          .error code) ∨
        NoJournal host ∨
        host.fails .syncJournal = false ∧ PreviousAccepted host format administration before ∧
          host.fails (.write .previousInput) = false := by
  rw [run, Stateful.exec_check_bind]
  cases hguards : guards host format administration .rollbackDisabled confirmation before with
  | error code => exact iff_of_true (journalOnlyIfChanged_refl _ _) (.inl ⟨code, rfl⟩)
  | ok _ =>
      obtain ⟨state, current, currentInput, hguarded⟩ := of_guards hguards
      rw [or_iff_right (by simp), ← checkPrevious_iff hguarded]
      exact journaled_iff hguarded.noJournal rfl fun previous _ _ =>
        storePrevious_iff hguarded.noJournal _ _ _ _ fun _ => keeps_completeRollback _

end Journal

/-! ## The four actions -/

section Journals

variable {Input : Type}

/-- **Journals of the four actions**: from every system, an action leaves a new journal only where
it has changed a managed file, if and only if it is refused in front of the journal, cannot write
the journal, or passes every check behind the journal and its first change of a managed file. -/
theorem journals_iff (host : Host) (runtimeFormat : StateFormat RuntimeConfiguration.State)
    (format : StateFormat State) (administration : Administration Input) (confirmation : String)
    (before : System) :
    (JournalOnlyIfChanged before
        ((RuntimeConfiguration.run host runtimeFormat .installMock confirmation).exec before) ↔
      (∃ code, RuntimeConfiguration.guards host runtimeFormat .installMock confirmation before =
          .error code) ∨
        NoJournal host ∨
        (before.files .environment).lstat = .absent ∧
          host.fails (.write .environment) = false) ∧
    (JournalOnlyIfChanged before
        ((RuntimeConfiguration.run host runtimeFormat .removeMock confirmation).exec before) ↔
      (∃ code, RuntimeConfiguration.guards host runtimeFormat .removeMock confirmation before =
          .error code) ∨
        (∃ code, RuntimeConfiguration.checkInstalled host runtimeFormat before = .error code) ∨
        NoJournal host ∨ host.fails (.remove .environment) = false) ∧
    (JournalOnlyIfChanged before
        ((run host format administration .replaceDisabled confirmation).exec before) ↔
      (∃ code, guards host format administration .replaceDisabled confirmation before =
          .error code) ∨
        NoJournal host ∨
        host.fails .syncJournal = false ∧ InputAccepted administration ∧
          host.fails (.write .previousInput) = false) ∧
    (JournalOnlyIfChanged before
        ((run host format administration .rollbackDisabled confirmation).exec before) ↔
      (∃ code, guards host format administration .rollbackDisabled confirmation before =
          .error code) ∨
        NoJournal host ∨
        host.fails .syncJournal = false ∧ PreviousAccepted host format administration before ∧
          host.fails (.write .previousInput) = false) :=
  ⟨RuntimeConfiguration.run_installMock_iff confirmation before,
    RuntimeConfiguration.run_removeMock_iff confirmation before,
    run_replaceDisabled_iff confirmation, run_rollbackDisabled_iff confirmation⟩

/-- A host on which nothing fails. -/
def preparedHost : Host where
  effectiveUID := 0
  platform := "linux"
  architecture := "amd64"
  applyOwnership := false
  creator := (0, 0)
  fails _ := false
  lock := none
  configDir := .present ⟨.directory, 0o750, 2, 0, 998⟩ (.error false)
  bundle := true
  bundleMetadata := some ("1.0.0", "0123456789abcdef0123456789abcdef01234567")
  currentDeployment := true
  accounts := some ⟨998, 998, 997⟩
  identityState := some ⟨998, 998, 997⟩
  identityJournal := false
  verifyManagedDisabled _ := true
  enableLink := .absent
  runtimeActivity := .absent
  sha256 _ := ""

/-- There is an environment file, and nothing else. -/
def existingEnvironment : System where
  files
    | .environment => .present ⟨.regular, 0o640, 1, 0, 998⟩ (.ok [])
    | _ => .absent
  journal := false
  changed := []

/-- An install that finds an environment file changes nothing and leaves its journal. -/
theorem installMock_leaves_journal :
    ¬ ((∀ (host : Host) (format : StateFormat RuntimeConfiguration.State)
          (action : RuntimeConfiguration.Action) (confirmation : String) (before : System),
          JournalOnlyIfChanged before
            ((RuntimeConfiguration.run host format action confirmation).exec before)) ∧
        ∀ (host : Host) (format : StateFormat State) (administration : Administration Unit)
          (action : Action) (confirmation : String) (before : System),
          JournalOnlyIfChanged before
            ((run host format administration action confirmation).exec before)) := by
  rintro ⟨hruntime, -⟩
  have h := hruntime preparedHost ⟨fun _ => none, fun _ => []⟩ .installMock
    RuntimeConfiguration.InstallConfirmation existingEnvironment
  have hjournal := h.repeatable "configuration_existing_unknown" (by decide +kernel)
    (by decide +kernel) (by decide +kernel)
  cases hjournal

end Journals

end AtlasManager.Deployment.AdministrativeConfiguration
