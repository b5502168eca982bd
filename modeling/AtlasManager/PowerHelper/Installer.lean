import AtlasManager.Lib.Disk
import AtlasManager.PowerHelper.Protocol

/-!
# AtlasManager.PowerHelper.Installer

The installer of the power helper, a program that is set-uid root once it is
installed: what `install`, `uninstall` and `verify` do on the disk, one system
call after the other.

* `Program` -- the calls an action can make, and what it does with the answers;
* `install`, `uninstall`, `verify` -- the actions.
-/

namespace AtlasManager.PowerHelper.Installer

open AtlasManager.Lib
open Disk (Node Files)

/-! ## Places -/

inductive Place where
  | varLib
  | usr
  | usrLocal
  | libexec
  | stateDir
  /-- `/usr/local/libexec/atlas-manager-power-helper`. -/
  | helper
  /-- `.atlas-manager-power-helper.candidate`. -/
  | candidate
  /-- `.installation.lock`. -/
  | lock
  /-- `installation.json`. -/
  | state
  /-- `.installation.json.candidate`. -/
  | stateCandidate
  deriving DecidableEq, Repr

def layout : Disk.Layout Place where
  parent
    | .usrLocal => some .usr
    | .libexec => some .usrLocal
    | .stateDir => some .varLib
    | .helper | .candidate => some .libexec
    | .lock | .state | .stateCandidate => some .stateDir
    | _ => none
  children
    | .usr => [.usrLocal]
    | .usrLocal => [.libexec]
    | .varLib => [.stateDir]
    | .libexec => [.helper, .candidate]
    | .stateDir => [.lock, .state, .stateCandidate]
    | _ => []

/-! ## Bundles and records -/

def isLowerHex (value : String) (length : Nat) : Bool :=
  value.length = length && value.toList.all fun c => Json.isDigit c || ('a' ≤ c && c ≤ 'f')

def isAlphanumeric (c : Char) : Bool :=
  Json.isDigit c || ('A' ≤ c && c ≤ 'Z') || ('a' ≤ c && c ≤ 'z')

/-- `[0-9A-Za-z]+(?:[.-][0-9A-Za-z]+)*`. -/
def isWords (cs : List Char) : Bool :=
  (cs.splitOnP fun c => c = '.' || c = '-').all fun word => word ≠ [] && word.all isAlphanumeric

/-- `[0-9]+\.[0-9]+\.[0-9]+`. -/
def isCore (cs : List Char) : Bool :=
  (cs.splitOn '.').length = 3 && (cs.splitOn '.').all fun part => part ≠ [] && part.all Json.isDigit

/-- A part that its first character opens, or nothing. -/
def opens (part : List Char) : Bool := part = [] || isWords part.tail

/-- `ValidatePackageVersion`: a core, a part behind `-`, and a part behind `+`. -/
def validatePackageVersion (value : String) : Bool :=
  let front := value.toList.takeWhile (· ≠ '+')
  value ≠ "" && value.length ≤ 64 && opens (value.toList.dropWhile (· ≠ '+')) &&
    isCore (front.takeWhile (· ≠ '-')) && opens (front.dropWhile (· ≠ '-'))

/-- What the installer reads of a manifest that `ParseManifest` accepts. -/
structure Manifest where
  packageVersion : String
  sourceCommit : String
  helperSHA256 : String
  version_valid : validatePackageVersion packageVersion = true
  commit_valid : isLowerHex sourceCommit 40 = true
  sha_valid : isLowerHex helperSHA256 64 = true

structure InstallationState where
  schemaVersion : Int
  packageVersion : String
  sourceCommit : String
  helperSHA256 : String
  installedPath : String
  installedOwner : String
  installedGroup : String
  installedMode : String
  deriving DecidableEq

def InstallPath : String := "/usr/local/libexec/atlas-manager-power-helper"

def InstallGroup : String := "atlas-manager-power"

def InstallMode : String := "04750"

def maxStateBytes : Nat := 4096

namespace InstallationState

def fields (state : InstallationState) : List (String × Json) :=
  [("schemaVersion", .num (Protocol.itoa state.schemaVersion)),
    ("packageVersion", .str state.packageVersion), ("sourceCommit", .str state.sourceCommit),
    ("helperSha256", .str state.helperSHA256), ("installedPath", .str state.installedPath),
    ("installedOwner", .str state.installedOwner), ("installedGroup", .str state.installedGroup),
    ("installedMode", .str state.installedMode)]

/-- The bytes of a record: one line. -/
def encode (state : InstallationState) : ByteArray :=
  (String.ofList ((Json.obj state.fields).print Protocol.marshalChar ++ ['\n'])).toByteArray

/-- The record that is written for a bundle. -/
def ofManifest (manifest : Manifest) : InstallationState where
  schemaVersion := 1
  packageVersion := manifest.packageVersion
  sourceCommit := manifest.sourceCommit
  helperSHA256 := manifest.helperSHA256
  installedPath := InstallPath
  installedOwner := "root"
  installedGroup := InstallGroup
  installedMode := InstallMode

def valid (state : InstallationState) : Bool :=
  state.schemaVersion = 1 && state.installedPath = InstallPath && state.installedOwner = "root" &&
    state.installedGroup = InstallGroup && state.installedMode = InstallMode &&
    validatePackageVersion state.packageVersion && isLowerHex state.sourceCommit 40 &&
    isLowerHex state.helperSHA256 64

def ofFields (fields : List (String × Json)) : Option InstallationState := do
  return {
    schemaVersion := ← Protocol.exactInteger (fields.lookup "schemaVersion")
    packageVersion := ← Protocol.exactString (fields.lookup "packageVersion")
    sourceCommit := ← Protocol.exactString (fields.lookup "sourceCommit")
    helperSHA256 := ← Protocol.exactString (fields.lookup "helperSha256")
    installedPath := ← Protocol.exactString (fields.lookup "installedPath")
    installedOwner := ← Protocol.exactString (fields.lookup "installedOwner")
    installedGroup := ← Protocol.exactString (fields.lookup "installedGroup")
    installedMode := ← Protocol.exactString (fields.lookup "installedMode") }

/-- The record of a file: valid, and written the way `encode` writes it. -/
def decode (data : ByteArray) : Option InstallationState := do
  if data.size > maxStateBytes then none
  let text ← String.fromUTF8? data
  if text.toList.getLast? ≠ some '\n' then none
  let .obj fields ← Json.parse text.toList.dropLast | none
  let state ← ofFields fields
  if state.encode ≠ data ∨ !state.valid then none
  return state

end InstallationState

/-! ## Calls -/

inductive Status where
  | valid
  | notInstalled
  | bundleInvalid
  | installationInvalid
  | groupUnavailable
  | groupNotEmpty
  | stateRecheck
  | busy
  deriving DecidableEq, Repr

inductive InstallerError where
  /-- An error of a system call. -/
  | os
  | bundleInvalid
  | installationInvalid
  | groupUnavailable
  | groupNotEmpty
  | stateRecheck
  | busy
  deriving DecidableEq, Repr

inductive Call where
  /-- The checks of the bundle; the answer is its manifest. -/
  | validateBundle
  /-- The checks of the group file; the answer is the helper group's number. -/
  | validateGroup
  /-- `os.ReadFile` of the helper in the bundle. -/
  | readSource
  /-- `syscall.Flock` without waiting. -/
  | flock
  | files (c : Disk.Call Place)

@[reducible] def Answer : Call → Type
  | .validateBundle => Manifest
  | .validateGroup => Nat
  | .readSource => ByteArray
  | .flock => Unit
  | .files c => Disk.Answer c

abbrev Program := Prog Call Answer InstallerError

/-- The two values an action returns. -/
abbrev Result := Status × Option InstallerError

def lstat (p : Place) : Program (Option Node) := Prog.perform (Call.files (.lstat p))

/-- What stands at a place; errors count as nothing there. -/
def nodeAt (p : Place) : Program (Option Node) := do
  match ← (lstat p).attempt with
  | .ok node => return node
  | .error _ => return none

def perform (c : Disk.Call Place) : Program (Disk.Answer c) := Prog.perform (Call.files c)

/-- `defer`red work after a failure. -/
def onFailure {α : Type} (p : Program α) (cleanup : Program Unit) : Program α := do
  match ← p.attempt with
  | .ok a => return a
  | .error e =>
    let _ ← cleanup.attempt
    .throw e

/-- `defer`red work in any case. -/
def deferring {α : Type} (p : Program α) (cleanup : Program Unit) : Program α := do
  let r ← p.attempt
  let _ ← cleanup.attempt
  .ofExcept r

/-- Another error in place of any. -/
def orThrow {α : Type} (p : Program α) (e : InstallerError) : Program α := do
  match ← p.attempt with
  | .ok a => return a
  | .error _ => .throw e

/-- The checks that end an action when they fail. -/
def require (b : Bool) (e : InstallerError) : Program Unit :=
  if b then return () else .throw e

/-! ## The installer -/

/-- The owner and the group of what the installer keeps. -/
structure Security where
  expectedUID : Nat
  expectedGID : Nat

section Installer

variable (security : Security) (sha256 : ByteArray → String)

def hasOwnerAndGroup (node : Node) : Bool :=
  node.uid = security.expectedUID && node.gid = security.expectedGID

def validateFixedDirectory (p : Place) : Program Unit := do
  let node ← nodeAt p
  require (node.any fun n => n.isDirectory && n.perm &&& 0o022 = 0 &&
    n.uid = security.expectedUID) .installationInvalid

def isStateDirectory (node : Node) : Bool :=
  node.isDirectory && node.perm = 0o700 && hasOwnerAndGroup security node

def ensureStateDirectory : Program Unit := do
  validateFixedDirectory security .varLib
  match ← orThrow (lstat .stateDir) .installationInvalid with
  | none =>
    perform (.mkdir .stateDir 0o700)
    perform (.chown .stateDir security.expectedUID security.expectedGID)
  | some node => require (isStateDirectory security node) .installationInvalid

def isLock (node : Node) : Bool :=
  node.isRegular && hasOwnerAndGroup security node && node.mode = 0o600 && node.links = 1

def acquireInstallLock : Program Unit := do
  let node ← orThrow (perform (.openOrCreate .lock 0o600)) .busy
  require (isLock security node) .busy
  orThrow (Prog.perform Call.flock) .busy

def isLibexec (node : Node) : Bool :=
  node.isDirectory && node.perm = 0o755 && node.uid = security.expectedUID

def validateParents : Program Unit := do
  validateFixedDirectory security .usr
  validateFixedDirectory security .usrLocal
  match ← orThrow (lstat .libexec) .installationInvalid with
  | none =>
    perform (.mkdir .libexec 0o755)
    perform (.chown .libexec security.expectedUID security.expectedGID)
  | some node => require (isLibexec security node) .installationInvalid

def isStateFile (node : Node) : Bool :=
  node.isRegular && node.perm = 0o600 && node.links = 1 && hasOwnerAndGroup security node

def isHelper (node : Node) : Bool :=
  node.isRegular && node.mode = 0o4750 && node.links = 1 && node.uid = security.expectedUID

/-- The record is valid, and the helper is the recorded one. -/
def validateStateAndHelper : Program Unit := do
  let node ← nodeAt .state
  require (node.any Node.isRegular) .stateRecheck
  let data ← orThrow (perform (.read .state)) .stateRecheck
  let some state := InstallationState.decode data | .throw .stateRecheck
  let node ← nodeAt .stateDir
  require (node.any (isStateDirectory security)) .stateRecheck
  let node ← nodeAt .state
  require (node.any (isStateFile security)) .stateRecheck
  let node ← nodeAt .helper
  require (node.any (isHelper security)) .stateRecheck
  let content ← orThrow (perform (.read .helper)) .stateRecheck
  require (sha256 content = state.helperSHA256) .stateRecheck

def validateExistingTarget : Program Unit := do
  match ← orThrow (lstat .helper) .installationInvalid with
  | none =>
    match ← (lstat .state).attempt with
    | .ok (some _) => .throw .stateRecheck
    | _ => return ()
  | some node =>
    require node.isRegular .installationInvalid
    validateStateAndHelper security sha256

def validateTargetGroup (expectedGID : Nat) : Program Unit := do
  match ← nodeAt .helper with
  | none => return ()
  | some node => require (node.gid = expectedGID) .installationInvalid

/-- Removes what an interrupted run has left, if it is what `openExclusive` makes. -/
def removeSafeCandidate (p : Place) (expectedMode : Nat) : Program Unit := do
  match ← orThrow (lstat p) .installationInvalid with
  | none => return ()
  | some node =>
    require (node.isRegular && node.mode = expectedMode && node.links = 1 &&
      hasOwnerAndGroup security node) .installationInvalid
    perform (.remove p)

def verifyCandidate (p : Place) (expectedHash : String) (gid : Nat) : Program Unit := do
  let node ← nodeAt p
  require (node.any fun n => isHelper security n && n.gid = gid) .installationInvalid
  let content ← orThrow (perform (.read p)) .installationInvalid
  require (sha256 content = expectedHash) .installationInvalid

def writeInstallationState (manifest : Manifest) : Program Unit := do
  removeSafeCandidate security .stateCandidate 0o600
  perform (.create .stateCandidate 0o600)
  deferring
    (do
      perform (.write .stateCandidate (InstallationState.ofManifest manifest).encode)
      perform (.sync .stateCandidate)
      perform (.chown .stateCandidate security.expectedUID security.expectedGID)
      perform (.chmod .stateCandidate 0o600)
      perform (.rename .stateCandidate .state)
      perform (.sync .stateDir))
    (perform (.remove .stateCandidate))

def placeCandidate (manifest : Manifest) (gid : Nat) (data : ByteArray) : Program Unit := do
  perform (.write .candidate data)
  perform (.sync .candidate)
  perform (.chown .candidate security.expectedUID gid)
  perform (.chmod .candidate 0o4750)
  verifyCandidate security sha256 .candidate manifest.helperSHA256 gid
  perform (.rename .candidate .helper)

def installCandidate (manifest : Manifest) (gid : Nat) : Program Unit := do
  let data ← Prog.perform Call.readSource
  removeSafeCandidate security .candidate 0o750
  perform (.create .candidate 0o750)
  onFailure (placeCandidate security sha256 manifest gid data) (perform (.remove .candidate))
  perform (.sync .libexec)
  writeInstallationState security manifest
  validateStateAndHelper security sha256

def reconcileState (manifest : Manifest) (gid : Nat) (p : Place) : Program Unit := do
  verifyCandidate security sha256 p manifest.helperSHA256 gid
  writeInstallationState security manifest

/-- Does the helper stand there without a record? -/
def isUnrecorded : Program Bool := do
  match ← (lstat .helper).attempt with
  | .ok (some _) =>
    match ← (lstat .state).attempt with
    | .ok none => return true
    | _ => return false
  | _ => return false

/-- The answer for a group that is not there or not empty. -/
def groupResult : InstallerError → Result
  | .groupNotEmpty => (.groupNotEmpty, some .groupNotEmpty)
  | _ => (.groupUnavailable, some .groupUnavailable)

/-- The part of `install` under the lock, with the bundle and the group. -/
def installManaged (manifest : Manifest) (gid : Nat) : Program Result := do
  let .ok () ← (validateParents security).attempt
    | return (.installationInvalid, some .installationInvalid)
  if ← isUnrecorded then
    match ← (reconcileState security sha256 manifest gid .helper).attempt with
    | .error .stateRecheck => return (.stateRecheck, some .stateRecheck)
    | .error _ => return (.installationInvalid, some .installationInvalid)
    | .ok () => return (.valid, none)
  else
    match ← (validateExistingTarget security sha256).attempt with
    | .error e => return (.installationInvalid, some e)
    | .ok () =>
      let .ok () ← (validateTargetGroup gid).attempt
        | return (.installationInvalid, some .installationInvalid)
      let .ok () ← (installCandidate security sha256 manifest gid).attempt
        | return (.installationInvalid, some .installationInvalid)
      return (.valid, none)

def install : Program Result := do
  let .ok _ ← (Prog.perform Call.validateBundle).attempt | return (.bundleInvalid, some .bundleInvalid)
  let .ok () ← (ensureStateDirectory security).attempt
    | return (.installationInvalid, some .installationInvalid)
  let .ok () ← (acquireInstallLock security).attempt | return (.busy, some .busy)
  let .ok manifest ← (Prog.perform Call.validateBundle).attempt
    | return (.bundleInvalid, some .bundleInvalid)
  match ← (Prog.perform Call.validateGroup).attempt with
  | .error e => return groupResult e
  | .ok gid => installManaged security sha256 manifest gid

/-- The effects of `uninstall`. -/
def removeInstallation : Program Unit := do
  perform (.remove .helper)
  perform (.sync .libexec)
  perform (.remove .state)
  perform (.sync .stateDir)
  perform (.remove .lock)
  -- a state directory that has gone is no error
  match ← (perform (.remove .stateDir)).attempt with
  | .ok () => return ()
  | .error e => do
    let .ok none ← (lstat .stateDir).attempt | .throw e
    return ()

def uninstall : Program Result := do
  let .ok () ← (acquireInstallLock security).attempt | return (.busy, some .busy)
  match ← (Prog.perform Call.validateGroup).attempt with
  | .error e => return groupResult e
  | .ok gid =>
    let .ok () ← (validateStateAndHelper security sha256).attempt
      | return (.installationInvalid, some .installationInvalid)
    let .ok () ← (validateTargetGroup gid).attempt
      | return (.installationInvalid, some .installationInvalid)
    let .ok () ← removeInstallation.attempt
      | return (.installationInvalid, some .installationInvalid)
    return (.notInstalled, none)

def verify : Program Result := do
  let .ok _ ← (Prog.perform Call.validateBundle).attempt | return (.bundleInvalid, some .bundleInvalid)
  match ← (Prog.perform Call.validateGroup).attempt with
  | .error e => return groupResult e
  | .ok gid =>
    match ← (lstat .helper).attempt with
    | .error _ => return (.installationInvalid, some .installationInvalid)
    | .ok none => return (.notInstalled, none)
    | .ok (some _) =>
      let .ok () ← (acquireInstallLock security).attempt | return (.busy, some .busy)
      match ← (validateStateAndHelper security sha256).attempt with
      | .error .stateRecheck => return (.stateRecheck, some .stateRecheck)
      | .error _ => return (.installationInvalid, some .installationInvalid)
      | .ok () =>
        let .ok () ← (validateTargetGroup gid).attempt
          | return (.installationInvalid, some .installationInvalid)
        return (.valid, none)

inductive Action where
  | install
  | uninstall
  | verify
  deriving DecidableEq, Repr

def Action.program : Action → Program Result
  | install => Installer.install security sha256
  | uninstall => Installer.uninstall security sha256
  | verify => Installer.verify security sha256

end Installer

end AtlasManager.PowerHelper.Installer
