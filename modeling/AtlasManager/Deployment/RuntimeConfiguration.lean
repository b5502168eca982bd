import AtlasManager.Lib.Stateful

/-!
# AtlasManager.Deployment.RuntimeConfiguration

The mock runtime configuration is installed and removed under a transaction journal.

* `System`, `Host` -- the files that the actions change, and what else they read;
* `run` -- the actions `install-mock` and `remove-mock`;
* `run_iff` -- when a journal stays only where a managed file was changed.
-/

namespace AtlasManager.Deployment

open AtlasManager.Lib

abbrev Bytes := List UInt8

/-! ## Files -/

inductive FileKind where
  | regular
  | directory
  | other
  deriving DecidableEq, Repr

/-- What `Lstat` tells. -/
structure FileInfo where
  kind : FileKind
  permissions : Nat
  links : Nat
  uid : Nat
  gid : Nat
  deriving DecidableEq, Repr

/-- A path: nothing there, nothing that can be told about it, or a file with what reading it
gives.  The error of a read tells whether there is no file, as behind a dangling link. -/
inductive FileEntry where
  | absent
  | inaccessible
  | present (info : FileInfo) (content : Except Bool Bytes)

inductive ManagedFile where
  | environment
  | state
  | currentInput
  | previousInput
  | previousEnvironment
  deriving DecidableEq, Repr

/-- What can fail on the host. -/
inductive Operation where
  | makeDirectory
  | changeDirectoryMode
  | writeJournal
  | syncJournal
  | removeJournal
  | write (file : ManagedFile)
  | sync (file : ManagedFile)
  | remove (file : ManagedFile)
  deriving DecidableEq, Repr

structure Identity where
  userID : Nat
  primaryGroupID : Nat
  helperGroupID : Nat
  deriving DecidableEq, Repr

inductive Presence where
  | found
  | absent
  | unknown
  deriving DecidableEq, Repr

/-- What the actions read and do not change. -/
structure Host where
  effectiveUID : Int
  platform : String
  architecture : String
  applyOwnership : Bool
  /-- Owner and group of the files that are not given to others. -/
  creator : Nat × Nat
  fails : Operation → Bool
  /-- Why the lock cannot be acquired. -/
  lock : Option String
  configDir : FileEntry
  /-- `InspectBundleReadOnly` finds nothing wrong. -/
  bundle : Bool
  /-- Version and source commit of the bundle's manifest. -/
  bundleMetadata : Option (String × String)
  currentDeployment : Bool
  /-- The identity that the account files contain. -/
  accounts : Option Identity
  /-- The identity that was recorded. -/
  identityState : Option Identity
  identityJournal : Bool
  verifyManagedDisabled : Identity → Bool
  enableLink : Presence
  runtimeActivity : Presence
  sha256 : Bytes → String

structure System where
  files : ManagedFile → FileEntry
  /-- There is a transaction journal, readable or not. -/
  journal : Bool
  /-- The managed files that were changed, the newest first. -/
  changed : List ManagedFile

abbrev Configuring := Stateful System String

namespace FileEntry

def lstat : FileEntry → Presence
  | absent => .absent
  | inaccessible => .unknown
  | present _ _ => .found

def read : FileEntry → Except Bool Bytes
  | absent => .error true
  | inaccessible => .error false
  | present _ content => content

end FileEntry

section Changes

variable (host : Host)

/-- A file that was written under another name first. -/
def replaceFile (file : ManagedFile) (info : FileInfo) (content : Bytes) (code : String) :
    Configuring Unit := fun s =>
  if host.fails (.write file) then (.error code, s)
  else (.ok (), { s with
    files := Function.update s.files file (.present info (.ok content))
    changed := file :: s.changed })

def removeFile (file : ManagedFile) (code : String) : Configuring Unit := fun s =>
  if (s.files file).lstat = .absent || host.fails (.remove file) then (.error code, s)
  else (.ok (), { s with
    files := Function.update s.files file .absent
    changed := file :: s.changed })

def removeJournal (code : String) : Configuring Unit := fun s =>
  if s.journal = false || host.fails .removeJournal then (.error code, s)
  else (.ok (), { s with journal := false })

/-- A step that may fail on the host, and changes no managed file. -/
def perform (operation : Operation) (code : String) : Configuring Unit := fun s =>
  if host.fails operation then (.error code, s) else (.ok (), s)

end Changes

/-- The journal cannot be written. -/
def NoJournal (host : Host) : Prop :=
  host.fails .makeDirectory = true ∨ host.fails .writeJournal = true

/-- What the journal of an action is for, given the files before it. -/
structure JournalOnlyIfChanged (before : System) (result : Except String String × System) :
    Prop where
  /-- An action that was blocked before it has changed a managed file leaves no journal. -/
  repeatable : ∀ code, result.1 = .error code → result.2.changed = before.changed →
    result.2.journal = true → before.journal = true
  onlyIfChanged : result.2.journal = true →
    before.journal = true ∨ result.2.changed ≠ before.changed

theorem journalOnlyIfChanged_iff {before : System} {result : Except String String × System} :
    JournalOnlyIfChanged before result ↔ (result.2.journal = true →
      before.journal = true ∨ result.2.changed ≠ before.changed) := by
  constructor
  · exact fun h => h.onlyIfChanged
  · intro h
    refine ⟨?_, h⟩
    intro code _ hsame hjournal
    exact (h hjournal).resolve_right (not_not.mpr hsame)

theorem journalOnlyIfChanged_refl (before : System) (result : Except String String) :
    JournalOnlyIfChanged before (result, before) :=
  journalOnlyIfChanged_iff.mpr Or.inl

/-- A managed file was changed since. -/
def ChangedSince (before s : System) : Prop := before.changed.length < s.changed.length

theorem ChangedSince.journalOnlyIfChanged {before : System}
    {result : Except String String × System} (h : ChangedSince before result.2) :
    JournalOnlyIfChanged before result := by
  refine journalOnlyIfChanged_iff.mpr fun _ => .inr fun hsame => ?_
  rw [ChangedSince, hsame] at h
  exact lt_irrefl _ h

/-- The journal was written, and no managed file was changed. -/
theorem not_journalOnlyIfChanged {before : System} (hjournal : before.journal = false)
    (result : Except String String) :
    ¬ JournalOnlyIfChanged before (result, { before with journal := true }) := by
  intro h
  rcases h.onlyIfChanged rfl with hbefore | hchanged
  · rw [hjournal] at hbefore
    cases hbefore
  · exact hchanged rfl

section Keeps

variable {host : Host} {before : System}

theorem exec_replaceFile_of_fails {file : ManagedFile} (h : host.fails (.write file) = true)
    (info : FileInfo) (content : Bytes) (code : String) (s : System) :
    (replaceFile host file info content code).exec s = (.error code, s) := by
  rw [Stateful.exec, replaceFile, if_pos h]

theorem exec_replaceFile {file : ManagedFile} (h : host.fails (.write file) = false)
    (info : FileInfo) (content : Bytes) (code : String) (s : System) :
    ∃ s', (replaceFile host file info content code).exec s = (.ok (), s') ∧
      s'.changed = file :: s.changed := by
  rw [Stateful.exec, replaceFile, h]
  exact ⟨_, rfl, rfl⟩

theorem exec_removeFile_of_fails {file : ManagedFile} (h : host.fails (.remove file) = true)
    (code : String) (s : System) : (removeFile host file code).exec s = (.error code, s) := by
  rw [Stateful.exec, removeFile, h, Bool.or_true, if_pos rfl]

theorem exec_removeFile {file : ManagedFile} (h : host.fails (.remove file) = false)
    (code : String) {s : System} (hpresent : (s.files file).lstat ≠ .absent) :
    ∃ s', (removeFile host file code).exec s = (.ok (), s') ∧ s'.changed = file :: s.changed := by
  rw [Stateful.exec, removeFile, h, if_neg (by simpa using hpresent)]
  exact ⟨_, rfl, rfl⟩

theorem keeps_replaceFile (file : ManagedFile) (info : FileInfo) (content : Bytes)
    (code : String) :
    Stateful.Keeps (ChangedSince before) (replaceFile host file info content code) := by
  intro s hs
  rw [Stateful.exec, replaceFile]
  by_cases hfails : host.fails (.write file) = true
  · rw [if_pos hfails]
    exact hs
  · rw [if_neg hfails]
    exact Nat.lt_succ_of_lt hs

theorem keeps_removeFile (file : ManagedFile) (code : String) :
    Stateful.Keeps (ChangedSince before) (removeFile host file code) := by
  intro s hs
  rw [Stateful.exec, removeFile]
  split
  · exact hs
  · exact Nat.lt_succ_of_lt hs

theorem keeps_removeJournal (code : String) :
    Stateful.Keeps (ChangedSince before) (removeJournal host code) := by
  intro s hs
  rw [Stateful.exec, removeJournal]
  split
  · exact hs
  · exact hs

theorem exec_perform_of_fails {operation : Operation} (h : host.fails operation = true)
    (code : String) (s : System) : (perform host operation code).exec s = (.error code, s) := by
  rw [Stateful.exec, perform, if_pos h]

theorem exec_perform {operation : Operation} (h : ¬ host.fails operation = true) (code : String)
    (s : System) : (perform host operation code).exec s = (.ok (), s) := by
  rw [Stateful.exec, perform, if_neg h]

theorem keeps_perform (operation : Operation) (code : String) :
    Stateful.Keeps (ChangedSince before) (perform host operation code) := by
  intro s hs
  rw [Stateful.exec, perform]
  split
  · exact hs
  · exact hs

end Keeps

/-- An early return of the source. -/
def refuseIf (c : Prop) [Decidable c] (code : String) : Except String Unit :=
  if c then .error code else .ok ()

@[simp] theorem refuseIf_eq_ok {c : Prop} [Decidable c] {code : String} {u : Unit} :
    refuseIf c code = .ok u ↔ ¬ c := by
  by_cases h : c <;> simp [refuseIf, h]

theorem bind_eq_ok {α β : Type} {x : Except String α} {f : α → Except String β} {b : β} :
    (x >>= f) = .ok b ↔ ∃ a, x = .ok a ∧ f a = .ok b := by
  cases x with
  | error code => simp [bind, Except.bind]
  | ok a => simp [bind, Except.bind]

/-! ## Texts -/

def isLowerHex (c : Char) : Bool :=
  '0' ≤ c && c ≤ '9' || 'a' ≤ c && c ≤ 'f'

/-- Hexadecimal digits in lower case. -/
def isDigest (length : Nat) (value : String) : Bool :=
  value.utf8ByteSize = length && value.toList.all isLowerHex

def safeHash (value : String) : Bool :=
  isDigest 64 value && value.toList ≠ List.replicate 64 '0'

def safeCommit (value : String) : Bool := isDigest 40 value

def safeVersion (value : String) : Bool :=
  value ≠ "" && value.toList.all fun c =>
    'a' ≤ c && c ≤ 'z' || 'A' ≤ c && c ≤ 'Z' || '0' ≤ c && c ≤ '9' || "._+-".toList.contains c

/-- The state file as strict JSON of at most 16 KiB. -/
structure StateFormat (State : Type) where
  decode : Bytes → Option State
  encode : State → Bytes

namespace RuntimeConfiguration

def InstallConfirmation : String := "confirm_atlas_manager_mock_runtime_configuration"
def RemoveConfirmation : String := "confirm_atlas_manager_mock_runtime_configuration_removal"

inductive Action where
  | installMock
  | removeMock
  deriving DecidableEq, Repr

def ProfileName : String := "mock-only"

def Profile : String :=
  "HOST=127.0.0.1\nPORT=3000\nLOG_LEVEL=info\nPOWER_MANAGEMENT_BACKEND=mock\n" ++
  "MACHINE_POWER_EFFECTS_ACTIVATION=disabled\nMACHINE_POWER_SCHEDULER_ENABLED=false\n" ++
  "MACHINE_OPERATING_POLICY=\x7b\"mode\":\"always_on\"\x7d\nREGISTERED_SERVICES_JSON=[]\n" ++
  "ADMINISTRATIVE_EVENT_HISTORY_HTTP_ENABLED=false\n" ++
  "ADMINISTRATIVE_WAKE_ALARM_HTTP_ENABLED=false\nADMINISTRATIVE_SHUTDOWN_HTTP_ENABLED=false\n"

def ProfileBytes : Bytes := Profile.toUTF8.data.toList

structure State where
  schemaVersion : Nat
  profile : String
  configurationSHA256 : String
  applicationVersion : String
  sourceCommit : String
  status : String
  deriving DecidableEq, Repr

def ValidateState (state : State) : Except String Unit :=
  if state.schemaVersion = 1 && state.profile = ProfileName && state.status = "installed" &&
      safeHash state.configurationSHA256 && safeVersion state.applicationVersion &&
      safeCommit state.sourceCommit then
    .ok ()
  else .error "configuration_state_invalid"

section Actions

variable (host : Host) (format : StateFormat State)

/-- No state, or the state in the file. -/
def ReadState (s : System) : Except String (Option State) :=
  match (s.files .state).read with
  | .error true => .ok none
  | .error false => .error "configuration_state_invalid"
  | .ok data =>
    match format.decode data with
    | none => .error "configuration_state_invalid"
    | some state => do
      ValidateState state
      return some state

def safeDirectory : FileEntry → Bool
  | .present info _ => info.kind = .directory && info.permissions &&& 0o022 = 0
  | _ => false

def validateDirectoryMetadata (gid : Nat) : FileEntry → Except String Unit
  | .present info _ =>
    if info.kind ≠ .directory || info.permissions ≠ 0o750 then .error "configuration_unsafe"
    else if host.applyOwnership && (info.uid ≠ 0 || info.gid ≠ gid) then
      .error "configuration_unsafe"
    else .ok ()
  | _ => .error "configuration_unsafe"

def validateMetadata (mode gid : Nat) : FileEntry → Except String Unit
  | .present info _ =>
    if info.kind ≠ .regular || info.permissions ≠ mode || info.links ≠ 1 then
      .error "configuration_unsafe"
    else if host.applyOwnership && (info.uid ≠ 0 || info.gid ≠ gid) then
      .error "configuration_unsafe"
    else .ok ()
  | _ => .error "configuration_unsafe"

def loadManagedIdentity : Except String Identity :=
  match host.accounts, host.identityState with
  | some identity, some recorded =>
    if recorded ≠ identity then .error "identity_not_ready"
    else if host.identityJournal then .error "identity_not_ready"
    else .ok identity
  | _, _ => .error "identity_not_ready"

def validatePrerequisites (s : System) : Except String Unit := do
  refuseIf (¬ safeDirectory host.configDir) "configuration_unsafe"
  refuseIf (¬ host.bundle) "bundle_invalid"
  refuseIf (¬ host.currentDeployment) "deployment_not_ready"
  let identity ← loadManagedIdentity host
  validateDirectoryMetadata host identity.primaryGroupID host.configDir
  refuseIf (¬ host.verifyManagedDisabled identity) "deployment_not_ready"
  refuseIf (host.enableLink = .found) "service_enabled"
  refuseIf (host.runtimeActivity = .found) "service_active"
  refuseIf s.journal "configuration_journal_present"

def verifyInstalled (state : State) (s : System) : Except String Unit := do
  ValidateState state
  let identity ← loadManagedIdentity host
  validateDirectoryMetadata host identity.primaryGroupID host.configDir
  match (s.files .environment).read with
  | .error _ => .error "configuration_modified"
  | .ok data => do
    refuseIf (data ≠ ProfileBytes) "configuration_modified"
    refuseIf (host.sha256 data ≠ state.configurationSHA256) "configuration_modified"
    validateMetadata host 0o640 identity.primaryGroupID (s.files .environment)

/-- An install finds no state file. -/
def checkNoState (action : Action) (s : System) : Except String Unit :=
  match action, ReadState format s with
  | .installMock, .ok none => .ok ()
  | .installMock, _ => .error "configuration_state_invalid"
  | .removeMock, _ => .ok ()

/-- The checks of `Run` in front of an action. -/
def guards (action : Action) (confirmation : String) (s : System) : Except String Unit := do
  refuseIf (host.effectiveUID ≠ 0) "effective_root_required"
  refuseIf (host.platform ≠ "linux" ∨ host.architecture ≠ "amd64") "unsupported_platform"
  refuseIf (action = .installMock ∧ confirmation ≠ InstallConfirmation) "confirmation_invalid"
  refuseIf (action = .removeMock ∧ confirmation ≠ RemoveConfirmation) "confirmation_invalid"
  validatePrerequisites host s
  checkNoState format action s
  refuseIf s.journal "configuration_journal_present"
  match host.lock with
  | none => .ok ()
  | some code => .error code

def writeJournal : Configuring Unit := do
  perform host .makeDirectory "configuration_journal_write_failed"
  perform host .writeJournal "configuration_journal_write_failed"
  modify fun s => { s with journal := true }

def writeConfiguration (primaryGroupID : Nat) : Configuring Unit :=
  let owner := if host.applyOwnership then (0, primaryGroupID) else host.creator
  replaceFile host .environment ⟨.regular, 0o640, 1, owner.1, owner.2⟩ ProfileBytes
    "configuration_write_failed"

def WriteState (state : State) : Configuring Unit := do
  Stateful.check fun _ => ValidateState state
  perform host .makeDirectory "configuration_state_write_failed"
  perform host .changeDirectoryMode "configuration_state_write_failed"
  replaceFile host .state ⟨.regular, 0o600, 1, host.creator.1, host.creator.2⟩ (format.encode state)
    "configuration_state_write_failed"

def RemoveState : Configuring Unit := do
  let present ← Stateful.check fun s => .ok ((s.files .state).lstat ≠ .absent : Bool)
  if present then
    removeFile host .state "configuration_state_remove_failed"

/-- What `install` does once the environment file is in place. -/
def completeInstall : Configuring String := do
  match host.bundleMetadata with
  | none =>
    (removeFile host .environment "configuration_remove_failed").ignore
    throw "bundle_invalid"
  | some (version, sourceCommit) =>
    let state : State := ⟨1, ProfileName, host.sha256 ProfileBytes, version, sourceCommit, "installed"⟩
    (WriteState host format state).recover fun code => do
      (removeFile host .environment "configuration_remove_failed").ignore
      throw code
    Stateful.check (verifyInstalled host state)
    removeJournal host "configuration_journal_remove_failed"
    return "installed_mock"

def install : Configuring String := do
  writeJournal host
  Stateful.check fun s =>
    match (s.files .environment).lstat with
    | .found => .error "configuration_existing_unknown"
    | .absent => .ok ()
    | .unknown => .error "configuration_unsafe"
  let identity ← Stateful.check fun _ => loadManagedIdentity host
  writeConfiguration host identity.primaryGroupID
  completeInstall host format

/-- The checks of `remove` in front of the journal. -/
def checkInstalled (s : System) : Except String Unit :=
  match ReadState format s with
  | .ok (some state) => verifyInstalled host state s
  | _ => .error "configuration_state_invalid"

/-- What `remove` does once the environment file is gone. -/
def completeRemove : Configuring String := do
  RemoveState host
  removeJournal host "configuration_journal_remove_failed"
  return "removed"

def remove : Configuring String := do
  Stateful.check (checkInstalled host format)
  writeJournal host
  removeFile host .environment "configuration_remove_failed"
  completeRemove host

/-- The result of the report, or the code for which the action is blocked. -/
def run (action : Action) (confirmation : String) : Configuring String := do
  Stateful.check (guards host format action confirmation)
  match action with
  | .installMock => install host format
  | .removeMock => remove host format

end Actions

/-! ## The journal -/

section Journal

variable {host : Host} {format : StateFormat State} {before : System}

theorem exec_writeJournal_of_noJournal (h : NoJournal host) (s : System) :
    (writeJournal host).exec s = (.error "configuration_journal_write_failed", s) := by
  rw [writeJournal]
  by_cases hdirectory : host.fails .makeDirectory = true
  · exact Stateful.exec_bind_error (exec_perform_of_fails hdirectory _ _)
  · rw [Stateful.exec_bind_ok (exec_perform hdirectory _ _)]
    exact Stateful.exec_bind_error (exec_perform_of_fails (h.resolve_left hdirectory) _ _)

theorem exec_writeJournal (h : ¬ NoJournal host) (s : System) :
    (writeJournal host).exec s = (.ok (), { s with journal := true }) := by
  obtain ⟨hdirectory, hwrite⟩ := not_or.mp h
  rw [writeJournal, Stateful.exec_bind_ok (exec_perform hdirectory _ _),
    Stateful.exec_bind_ok (exec_perform hwrite _ _)]
  rfl

theorem keeps_writeState (state : State) :
    Stateful.Keeps (ChangedSince before) (WriteState host format state) := by
  refine (Stateful.keeps_check _).bind fun _ => ?_
  refine (keeps_perform _ _).bind fun _ => ?_
  refine (keeps_perform _ _).bind fun _ => ?_
  exact keeps_replaceFile _ _ _ _

theorem keeps_completeInstall :
    Stateful.Keeps (ChangedSince before) (completeInstall host format) := by
  rw [completeInstall]
  cases host.bundleMetadata with
  | none => exact (keeps_removeFile _ _).ignore.bind fun _ => Stateful.keeps_throw _
  | some metadata =>
      refine ((keeps_writeState _).recover fun _ => ?_).bind fun _ => ?_
      · exact (keeps_removeFile _ _).ignore.bind fun _ => Stateful.keeps_throw _
      · refine (Stateful.keeps_check _).bind fun _ => ?_
        exact (keeps_removeJournal _).bind fun _ => Stateful.keeps_pure _

theorem keeps_completeRemove :
    Stateful.Keeps (ChangedSince before) (completeRemove host) := by
  refine Stateful.Keeps.bind ?_ fun _ => (keeps_removeJournal _).bind fun _ => Stateful.keeps_pure _
  refine (Stateful.keeps_check _).bind fun present => ?_
  cases present with
  | true => exact keeps_removeFile _ _
  | false => exact Stateful.keeps_pure _

/-- What the guards have seen. -/
theorem of_guards {action : Action} {confirmation : String} {s : System}
    (h : guards host format action confirmation s = .ok ()) :
    s.journal = false ∧ ∃ identity, loadManagedIdentity host = .ok identity := by
  rw [guards] at h
  simp only [bind_eq_ok, refuseIf_eq_ok, validatePrerequisites] at h
  obtain ⟨_, _, _, _, _, _, _, _, _, hprerequisites, _, _, _, hjournal, _⟩ := h
  obtain ⟨_, _, _, _, _, _, identity, hidentity, _⟩ := hprerequisites
  exact ⟨by simpa using hjournal, identity, hidentity⟩

/-- **`install-mock` keeps no journal for nothing** when it is refused, cannot write the journal,
or finds no environment file and writes one. -/
theorem run_installMock_iff (confirmation : String) (before : System) :
    JournalOnlyIfChanged before ((run host format .installMock confirmation).exec before) ↔
      (∃ code, guards host format .installMock confirmation before = .error code) ∨
        NoJournal host ∨
        (before.files .environment).lstat = .absent ∧
          host.fails (.write .environment) = false := by
  rw [run, Stateful.exec_check_bind]
  cases hguards : guards host format .installMock confirmation before with
  | error code => exact iff_of_true (journalOnlyIfChanged_refl _ _) (.inl ⟨code, rfl⟩)
  | ok _ =>
      obtain ⟨hjournal, identity, hidentity⟩ := of_guards hguards
      have hrefused : ¬ ∃ code, (.ok () : Except String Unit) = .error code := by simp
      rw [or_iff_right hrefused, install]
      dsimp only
      by_cases hno : NoJournal host
      · rw [Stateful.exec_bind_error (exec_writeJournal_of_noJournal hno before)]
        exact iff_of_true (journalOnlyIfChanged_refl _ _) (.inl hno)
      · rw [or_iff_right hno, Stateful.exec_bind_ok (exec_writeJournal hno before),
          Stateful.exec_check_bind]
        dsimp only
        cases hlstat : (before.files .environment).lstat with
        | found => exact iff_of_false (not_journalOnlyIfChanged hjournal _) (by simp)
        | unknown => exact iff_of_false (not_journalOnlyIfChanged hjournal _) (by simp)
        | absent =>
            dsimp only
            rw [Stateful.exec_check_bind, hidentity]
            dsimp only
            rw [writeConfiguration]
            by_cases hwrite : host.fails (.write .environment) = true
            · rw [Stateful.exec_bind_error (exec_replaceFile_of_fails hwrite _ _ _ _)]
              exact iff_of_false (not_journalOnlyIfChanged hjournal _) (by simp [hwrite])
            · rw [Bool.not_eq_true] at hwrite
              obtain ⟨written, hexec, hchanged⟩ := exec_replaceFile hwrite
                ⟨.regular, 0o640, 1, (if host.applyOwnership then (0, identity.primaryGroupID)
                  else host.creator).1, (if host.applyOwnership then (0, identity.primaryGroupID)
                  else host.creator).2⟩ ProfileBytes "configuration_write_failed"
                { before with journal := true }
              rw [Stateful.exec_bind_ok hexec]
              have hsince : ChangedSince before written := by simp [ChangedSince, hchanged]
              exact iff_of_true (keeps_completeInstall _ hsince).journalOnlyIfChanged (by simp [hwrite])

/-- Where the installed configuration was checked there is an environment file. -/
theorem lstat_of_checkInstalled {s : System} (h : checkInstalled host format s = .ok ()) :
    (s.files .environment).lstat ≠ .absent := by
  intro habsent
  have hread : (s.files .environment).read = .error true := by
    cases hentry : s.files .environment with
    | absent => rfl
    | inaccessible => simp [hentry, FileEntry.lstat] at habsent
    | present info content => simp [hentry, FileEntry.lstat] at habsent
  rw [checkInstalled] at h
  split at h
  · simp only [verifyInstalled, bind_eq_ok, hread] at h
    obtain ⟨_, _, _, _, _, _, h⟩ := h
    cases h
  · cases h

/-- **`remove-mock` keeps no journal for nothing** when it is refused, cannot write the journal,
or can remove the environment file. -/
theorem run_removeMock_iff (confirmation : String) (before : System) :
    JournalOnlyIfChanged before ((run host format .removeMock confirmation).exec before) ↔
      (∃ code, guards host format .removeMock confirmation before = .error code) ∨
        (∃ code, checkInstalled host format before = .error code) ∨ NoJournal host ∨
        host.fails (.remove .environment) = false := by
  rw [run, Stateful.exec_check_bind]
  cases hguards : guards host format .removeMock confirmation before with
  | error code => exact iff_of_true (journalOnlyIfChanged_refl _ _) (.inl ⟨code, rfl⟩)
  | ok _ =>
      obtain ⟨hjournal, -⟩ := of_guards hguards
      rw [or_iff_right (by simp), remove]
      dsimp only
      rw [Stateful.exec_check_bind]
      cases hinstalled : checkInstalled host format before with
      | error code => exact iff_of_true (journalOnlyIfChanged_refl _ _) (.inl ⟨code, rfl⟩)
      | ok _ =>
          rw [or_iff_right (by simp)]
          dsimp only
          by_cases hno : NoJournal host
          · rw [Stateful.exec_bind_error (exec_writeJournal_of_noJournal hno before)]
            exact iff_of_true (journalOnlyIfChanged_refl _ _) (.inl hno)
          · rw [or_iff_right hno, Stateful.exec_bind_ok (exec_writeJournal hno before)]
            by_cases hremove : host.fails (.remove .environment) = true
            · rw [Stateful.exec_bind_error (exec_removeFile_of_fails hremove _ _)]
              exact iff_of_false (not_journalOnlyIfChanged hjournal _) (by simp [hremove])
            · rw [Bool.not_eq_true] at hremove
              obtain ⟨removed, hexec, hchanged⟩ := exec_removeFile hremove
                "configuration_remove_failed" (s := { before with journal := true })
                (lstat_of_checkInstalled hinstalled)
              rw [Stateful.exec_bind_ok hexec]
              have hsince : ChangedSince before removed := by simp [ChangedSince, hchanged]
              exact iff_of_true (keeps_completeRemove _ hsince).journalOnlyIfChanged hremove

end Journal

end RuntimeConfiguration

end AtlasManager.Deployment
