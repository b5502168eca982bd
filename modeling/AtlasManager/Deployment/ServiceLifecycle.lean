import AtlasManager.Lib.GoText
import AtlasManager.Lib.Prog

/-!
# AtlasManager.Deployment.ServiceLifecycle

The activation of the service unit: what is asked of `systemctl`, how the
answer is read, the journal and the state file, and the roll back of an
activation that fails.  The programs run over the commands and the files of
the host; `Deployment.ActivationOutcomes` says what these may do.

* `systemdState` -- the unit as `systemctl show` prints it;
* `activate` -- the activation, with its roll back `fail`;
* `runActivateMock` -- the action `activate-mock`.
-/

namespace AtlasManager.Deployment.ServiceLifecycle

open AtlasManager.Lib GoText

/-! ## Reports -/

inductive Action where
  | inspect | activateMock | verifyActiveMock | deactivate | verifyInactive
  deriving DecidableEq

def Action.text : Action → String
  | .inspect => "inspect"
  | .activateMock => "activate-mock"
  | .verifyActiveMock => "verify-active-mock"
  | .deactivate => "deactivate"
  | .verifyInactive => "verify-inactive"

structure Check where
  name : String := ""
  status : String := ""
  code : String := ""
  deriving DecidableEq

structure Report where
  schemaVersion : Nat
  action : Action
  result : String
  deployment : Check := {}
  identity : Check := {}
  configuration : Check := {}
  systemd : Check := {}
  runtime : Check := {}
  health : Check := {}
  administrativeRoutes : Check := {}
  transaction : Check := {}
  deriving DecidableEq

def success (action : Action) (result : String) : Report where
  schemaVersion := 1
  action := action
  result := result
  deployment := ⟨"deployment", "passed", "deployment_ready"⟩
  identity := ⟨"identity", "passed", "identity_ready"⟩
  configuration := ⟨"configuration", "passed", "mock_only"⟩
  systemd := ⟨"systemd", "passed", result⟩
  runtime := ⟨"runtime", "passed", result⟩
  health := ⟨"health", "passed", result⟩
  administrativeRoutes := ⟨"administrative_routes", "passed", "routes_absent"⟩
  transaction := ⟨"transaction", "passed", "activation_transaction_absent"⟩

def blocked (action : Action) (failure : String) : Report where
  schemaVersion := 1
  action := action
  result := "blocked"
  systemd := ⟨"systemd", "blocked", failure⟩
  transaction := ⟨"transaction", "blocked", failure⟩

def failure (action : Action) (result failure : String) : Report where
  schemaVersion := 1
  action := action
  result := result
  systemd := { status := "blocked", code := failure, name := "systemd" }
  transaction := { status := "blocked", code := result, name := "transaction" }

/-- The text of an error as a report shows it. -/
def code (error : String) : String :=
  if error = "" || ' ' ∈ error.toList then "qualification_failed" else error

/-! ## The calls -/

/-- The commands for `systemctl`. -/
inductive Systemctl where
  | show | daemonReload | enable | start | stop | disable
  deriving DecidableEq

def UnitName : String := "atlas-manager.service"

def Systemctl.args : Systemctl → List String
  | .show =>
    ["show", UnitName, "--property=LoadState", "--property=ActiveState", "--property=SubState",
      "--property=UnitFileState", "--property=MainPID", "--property=ExecMainStatus", "--no-pager"]
  | .daemonReload => ["daemon-reload"]
  | .enable => ["enable", UnitName]
  | .start => ["start", UnitName]
  | .stop => ["stop", UnitName]
  | .disable => ["disable", UnitName]

structure CommandResult where
  stdout : Text
  exitCode : Int
  deriving DecidableEq

/-- The arguments stand for the command. -/
theorem args_injective : Function.Injective Systemctl.args := by
  intro c d h
  cases c <;> cases d <;> first | rfl | simp [Systemctl.args] at h

/-- Paths that are there while the unit is enabled or runs. -/
inductive Marker where
  | enableLink | runtimeDir
  deriving DecidableEq

/-- The files of a transaction; the candidate becomes the state file. -/
inductive FileName where
  | journal | candidate | stateFile
  deriving DecidableEq

structure Journal where
  schemaVersion : Nat
  status : String
  steps : List String := []
  deriving DecidableEq

structure State where
  schemaVersion : Nat
  status : String
  applicationVersion : String
  sourceCommit : String
  configurationSHA256 : String
  systemdUnitSHA256 : String
  deriving DecidableEq

inductive Document where
  | journal (j : Journal)
  | state (s : State)
  deriving DecidableEq

/-- What the release manifest says about the release. -/
structure Manifest where
  version : String
  sourceCommit : String
  deriving DecidableEq

inductive Call where
  | readJournal
  | acquireLock
  | releaseLock
  | validateStatic
  | lstat (marker : Marker)
  | systemctl (command : Systemctl)
  | health (pid : Int)
  | identity
  | manifest
  | configuration
  | unitFile
  | mkdirAll
  | openNew (file : FileName)
  | write (file : FileName) (document : Document)
  | sync (file : FileName)
  | close (file : FileName)
  | remove (file : FileName)
  | rename (source target : FileName)
  deriving DecidableEq

/-- What a call answers with when it does not fail.  The journal is `none` when
there is no such file. -/
abbrev Answer : Call → Type
  | .readJournal => Option Text
  | .lstat _ => Bool
  | .systemctl _ => CommandResult
  | .manifest => Manifest
  | .configuration => Text
  | .unitFile => Text
  | _ => Unit

abbrev Program := Prog Call Answer String

def ask (call : Call) : Program (Answer call) := Prog.perform call

/-! ## The unit -/

structure SystemdState where
  loaded : Bool := false
  active : Bool := false
  enabled : Bool := false
  subState : Text := []
  pid : Int := 0
  deriving DecidableEq

/-- The arithmetic of a Go `int`. -/
def wrap (n : Int) : Int := n.bmod (2 ^ 64)

/-- A positive decimal number, or 0 for no digits. -/
def atoiPositive (value : Text) : Except String Int :=
  (trimSpace value).foldlM (fun result char =>
    if char < 48 ∨ 57 < char then throw "invalid_number"
    else
      let result := wrap (wrap (result * 10) + (char.toNat - 48))
      if result ≤ 0 then throw "invalid_number" else pure result) 0

/-- One line of the answer; lines without `=` and other properties are skipped. -/
def readProperty (state : SystemdState) (line : Text) : SystemdState :=
  match cut equals line with
  | none => state
  | some (name, value) =>
    if name = bytes "LoadState" then { state with loaded := value = bytes "loaded" }
    else if name = bytes "ActiveState" then { state with active := value = bytes "active" }
    else if name = bytes "SubState" then { state with subState := value }
    else if name = bytes "UnitFileState" then { state with enabled := value = bytes "enabled" }
    else if name = bytes "MainPID" then
      { state with pid := match atoiPositive value with | .ok pid => pid | .error _ => 0 }
    else state

def readShow (stdout : Text) : SystemdState := (split newline stdout).foldl readProperty {}

def systemdState : Program SystemdState := do
  match ← (ask (.systemctl .show)).attempt with
  | .error _ => .throw "systemd_state_unavailable"
  | .ok shown =>
    if shown.exitCode ≠ 0 then .throw "systemd_state_unavailable"
    else return readShow shown.stdout

def MaxOutput : Nat := 16 * 1024

/-- Did a command fail, as far as `command` can see? -/
def failed : Except String CommandResult → Bool
  | .error _ => true
  | .ok result => result.exitCode ≠ 0 || MaxOutput < result.stdout.length

def command (c : Systemctl) : Program Unit := do
  if failed (← (ask (.systemctl c)).attempt) then .throw "systemctl_failed"

/-! ## Before the activation -/

def absent (marker : Marker) : Program Unit := do
  match ← (ask (.lstat marker)).attempt with
  | .ok true => .throw "service_already_active"
  | .ok false => return ()
  | .error _ => .throw "service_state_unsafe"

def validateReady : Program Unit := do
  ask .validateStatic
  absent .enableLink
  absent .runtimeDir
  match ← systemdState.attempt with
  | .error _ => .throw "systemd_state_unavailable"
  | .ok state => if state.enabled || state.active then .throw "service_already_active"

/-! ## The files -/

/-- Write a new file, or remove what has been written of it. -/
def writeNew (file : FileName) (document : Document) : Program Unit := do
  ask (.openNew file)
  let written ← Prog.attempt do
    ask (.write file document)
    ask (.sync file)
  let closed ← (ask (.close file)).attempt
  -- the first error counts
  match written, closed with
  | .ok _, .ok _ => return ()
  | .error e, _ | .ok _, .error e =>
    let _ ← (ask (.remove file)).attempt
    .throw e

def writeJournal (journal : Journal) : Program Unit := do
  ask .mkdirAll
  writeNew .journal (.journal journal)

/-- The file need not hold a valid journal to be seen. -/
def readJournal : Program Bool := do
  match ← (ask .readJournal).attempt with
  | .ok none => return false
  | _ => return true

section Activation

-- the hexadecimal text of a SHA-256 digest
variable (digest : Text → String)

def writeState : Program Unit := do
  ask .identity
  let value ← ask .manifest
  let configData ← ask .configuration
  let unitData ← ask .unitFile
  ask .mkdirAll
  writeNew .candidate (.state {
    schemaVersion := 1
    status := "active_mock"
    applicationVersion := value.version
    sourceCommit := value.sourceCommit
    configurationSHA256 := digest configData
    systemdUnitSHA256 := digest unitData })
  match ← (ask (.rename .candidate .stateFile)).attempt with
  | .ok _ => return ()
  | .error e =>
    let _ ← (ask (.remove .candidate)).attempt
    .throw e

/-! ## The activation -/

/-- Undo a step of the activation and look whether it is undone. -/
def undo (c : Systemctl) (remains : SystemdState → Bool) : Program Unit := do
  command c
  match ← systemdState.attempt with
  | .error _ => .throw "rollback_incomplete"
  | .ok state => if remains state then .throw "rollback_incomplete"

def rollback (started enabled : Bool) : Program Unit := do
  if started then undo .stop (·.active)
  if enabled then undo .disable (·.enabled)

/-- The report of an activation that failed, after its roll back. -/
def fail (started enabled : Bool) (reason : String) : Program Report := do
  match ← (rollback started enabled).attempt with
  | .error _ => return failure .activateMock "activation_failed_recovery_required" reason
  | .ok _ =>
    let _ ← (ask (.remove .journal)).attempt
    return failure .activateMock "activation_failed_rolled_back" reason

/-- `activate` once the unit is enabled. -/
def startUnit : Program Report := do
  let .ok _ ← (command .start).attempt | fail true true "service_start_failed"
  match ← systemdState.attempt with
  | .error _ => fail true true "service_not_active"
  | .ok state =>
    if !state.active || state.pid ≤ 0 then fail true true "service_not_active"
    else
      match ← (ask (.health state.pid)).attempt with
      | .error e => fail true true (code e)
      | .ok _ =>
        let .ok _ ← (writeState digest).attempt | fail true true "activation_state_write_failed"
        let .ok _ ← (ask (.remove .journal)).attempt
          | return blocked .activateMock "activation_journal_remove_failed"
        return success .activateMock "active_mock_verified"

/-- `activate` once the journal is written. -/
def activateUnit : Program Report := do
  let .ok _ ← (command .daemonReload).attempt | fail false false "daemon_reload_failed"
  match ← systemdState.attempt with
  | .error _ => fail false false "service_unit_invalid"
  | .ok state =>
    if !state.loaded then fail false false "service_unit_invalid"
    else
      let .ok _ ← (command .enable).attempt | fail false false "service_enable_failed"
      match ← systemdState.attempt with
      | .error _ => fail false true "service_enable_failed"
      | .ok state =>
        if !state.enabled then fail false true "service_enable_failed"
        else startUnit digest

def activate : Program Report := do
  match ← validateReady.attempt with
  | .error e => return blocked .activateMock (code e)
  | .ok _ =>
    let .ok _ ← (writeJournal { schemaVersion := 1, status := "in_progress" }).attempt
      | return blocked .activateMock "activation_journal_write_failed"
    activateUnit digest

/-! ## The action -/

/-- Where and as whom the tool runs. -/
structure Host where
  effectiveUID : Int
  platform : String
  architecture : String
  deriving DecidableEq

def ActivationConfirmation : String := "confirm_atlas_manager_mock_service_activation"

/-- `Run` with the action `activate-mock`. -/
def runActivateMock (host : Host) (confirmation : String) : Program Report := do
  if host.effectiveUID ≠ 0 then
    return blocked .activateMock "effective_root_required"
  else if host.platform ≠ "linux" ∨ host.architecture ≠ "amd64" then
    return blocked .activateMock "unsupported_platform"
  else if confirmation ≠ ActivationConfirmation then
    return blocked .activateMock "confirmation_invalid"
  else if ← readJournal then
    return blocked .activateMock "activation_journal_present"
  else
    match ← (ask .acquireLock).attempt with
    | .error e => return blocked .activateMock (code e)
    | .ok _ =>
      let report ← activate digest
      let _ ← (ask .releaseLock).attempt
      return report

end Activation

end AtlasManager.Deployment.ServiceLifecycle
