import AtlasManager.PowerHelper.Installer

/-!
# AtlasManager.PowerHelper.InstallerSafety

What the installer puts at the helper's path, whatever fails and wherever it is
interrupted.

* `placed_of_sequence` -- at every moment of every sequence of runs, a file that the
  installer has put there was checked in the run that put it there;
* `recordMatches_of_verify` -- a verification that succeeds has seen the recorded file;
* `helper_safe` -- both together.
-/

namespace AtlasManager.PowerHelper.Installer

open AtlasManager.Lib
open AtlasManager.Lib.Prog
open Disk (Node Files)

/-! ## Rules for the installer's programs -/

section Rules

variable {W α : Type} {H : Handler Call Answer InstallerError W} {J : W → Prop} {w : W}

@[simp] theorem spec_require {b : Bool} {e : InstallerError}
    {Q : Except InstallerError Unit → W → Prop} :
    Spec H J (require b e) Q w ↔ if b then Q (.ok ()) w else Q (.error e) w := by
  cases b <;> simp [require]

@[simp] theorem spec_orThrow {p : Program α} {e : InstallerError}
    {Q : Except InstallerError α → W → Prop} :
    Spec H J (orThrow p e) Q w ↔ Spec H J p (fun
      | .ok a, w' => Q (.ok a) w'
      | .error _, w' => Q (.error e) w') w := by
  simp only [orThrow, spec_bind, spec_attempt]
  constructor
  · intro h
    exact h.mono (fun _ h => h) fun o w' ho => by cases o <;> exact ho
  · intro h
    exact h.mono (fun _ h => h) fun o w' ho => by cases o <;> exact ho

@[simp] theorem spec_onFailure {p : Program α} {cleanup : Program Unit}
    {Q : Except InstallerError α → W → Prop} :
    Spec H J (onFailure p cleanup) Q w ↔ Spec H J p (fun
      | .ok a, w' => Q (.ok a) w'
      | .error e, w' => Spec H J cleanup (fun _ w'' => Q (.error e) w'') w') w := by
  simp only [onFailure, spec_bind, spec_attempt]
  constructor
  · intro h
    refine h.mono (fun _ h => h) fun o w' ho => ?_
    cases o with
    | ok a => exact ho
    | error e => simpa using ho
  · intro h
    refine h.mono (fun _ h => h) fun o w' ho => ?_
    cases o with
    | ok a => exact ho
    | error e => simpa using ho

@[simp] theorem spec_deferring {p : Program α} {cleanup : Program Unit}
    {Q : Except InstallerError α → W → Prop} :
    Spec H J (deferring p cleanup) Q w ↔
      Spec H J p (fun o w' => Spec H J cleanup (fun _ w'' => Q o w'') w') w := by
  simp only [deferring, spec_bind, spec_attempt, spec_ofExcept]

variable {P : Call → Prop}

@[simp] theorem only_require {b : Bool} {e : InstallerError} : Only P (require b e) := by
  cases b <;> simp [require]

theorem only_orThrow {p : Program α} {e : InstallerError} (hp : Only P p) :
    Only P (orThrow p e) :=
  Only.bind (only_attempt.mpr hp) fun o => by cases o <;> simp

theorem only_deferring {p : Program α} {cleanup : Program Unit} (hp : Only P p)
    (hcleanup : Only P cleanup) : Only P (deferring p cleanup) :=
  Only.bind (only_attempt.mpr hp) fun _ =>
    Only.bind (only_attempt.mpr hcleanup) fun _ => by simp

end Rules

/-! ## The host -/

/-- The disk, and what has happened in the run that is going on. -/
structure World where
  files : Files Place
  validated : List Manifest
  groups : List Nat
  /-- Has the run put a file at the helper's path? -/
  placed : Bool

/-- The calls that can put a file at the helper's path. -/
def places : Disk.Call Place → Bool
  | .remove _ => false
  | c => decide (Place.helper ∈ c.touches)

/-- What can happen: checks of the bundle and of the group answer anything, and every
call can fail. -/
def mayHappen (process : Disk.Process) (groups : Nat → Prop) :
    Handler Call Answer InstallerError World
  | w, .validateBundle, r, w' =>
    (∃ manifest, r = .ok manifest ∧ w' = { w with validated := manifest :: w.validated }) ∨
      (r = .error .bundleInvalid ∧ w' = w)
  | w, .validateGroup, r, w' =>
    (∃ gid, groups gid ∧ r = .ok gid ∧ w' = { w with groups := gid :: w.groups }) ∨
      ((r = .error .groupNotEmpty ∨ r = .error .groupUnavailable) ∧ w' = w)
  | w, .readSource, _, w' => w' = w
  | w, .flock, _, w' => w' = w
  | w, .files c, r, w' =>
    ∃ files, Disk.mayFail .os layout process w.files c r files ∧
      w' = { w with files := files, placed := w.placed || (r.toBool && places c) }

section Safety

variable {security : Security} {sha256 : ByteArray → String} {process : Disk.Process}
  {groups : Nat → Prop} {J : World → Prop} {w w' : World}

/-- Looking changes nothing, and shows what is there. -/
theorem lstat_mayHappen {p : Place} {r : Except InstallerError (Option Node)}
    (h : mayHappen process groups w (.files (.lstat p)) r w') :
    w' = w ∧ ∀ node, r = .ok node → node = w.files p := by
  obtain ⟨files, hcall, rfl⟩ := h
  have hplaces : places (.lstat p) = false := rfl
  rcases hcall with ⟨a, heffect, rfl⟩ | ⟨rfl, rfl | ⟨_, _, _, _, hc, _⟩⟩
  · simp only [Disk.effect, Option.some.injEq, Prod.mk.injEq] at heffect
    obtain ⟨rfl, rfl⟩ := heffect
    simp [hplaces]
  · simp [hplaces]
  · cases hc

theorem read_mayHappen {p : Place} {r : Except InstallerError ByteArray}
    (h : mayHappen process groups w (.files (.read p)) r w') :
    w' = w ∧ ∀ content, r = .ok content →
      ∃ node, w.files p = some node ∧ node.content? = some content := by
  obtain ⟨files, hcall, rfl⟩ := h
  have hplaces : places (.read p) = false := rfl
  rcases hcall with ⟨a, heffect, rfl⟩ | ⟨rfl, rfl | ⟨_, _, _, _, hc, _⟩⟩
  · simp only [Disk.effect, Option.bind_eq_some_iff, Option.map_eq_some_iff, Prod.mk.injEq] at heffect
    obtain ⟨node, hnode, content, hcontent, rfl, rfl⟩ := heffect
    refine ⟨by simp [hplaces], fun content' hok => ⟨node, hnode, ?_⟩⟩
    rw [hcontent]
    exact congrArg some (Except.ok.inj hok)
  · simp [hplaces]
  · cases hc

theorem spec_lstat {p : Place} {Q : Except InstallerError (Option Node) → World → Prop} (hw : J w)
    (herr : ∀ e, Q (.error e) w) (hok : Q (.ok (w.files p)) w) :
    Spec (mayHappen process groups) J (lstat p) Q w := by
  simp only [lstat, spec_perform]
  intro r w' hr
  obtain ⟨rfl, hnode⟩ := lstat_mayHappen hr
  cases r with
  | ok node => rw [hnode node rfl]; exact ⟨hw, hok⟩
  | error e => exact ⟨hw, herr e⟩

theorem spec_read {p : Place} {Q : Except InstallerError ByteArray → World → Prop} (hw : J w)
    (herr : ∀ e, Q (.error e) w)
    (hok : ∀ node content, w.files p = some node → node.content? = some content → Q (.ok content) w) :
    Spec (mayHappen process groups) J (perform (.read p)) Q w := by
  simp only [perform, spec_perform]
  intro r w' hr
  obtain ⟨rfl, hcontent⟩ := read_mayHappen hr
  cases r with
  | ok content =>
      obtain ⟨node, hnode, hread⟩ := hcontent content rfl
      exact ⟨hw, hok node content hnode hread⟩
  | error e => exact ⟨hw, herr e⟩

theorem spec_nodeAt {p : Place} {Q : Except InstallerError (Option Node) → World → Prop} (hw : J w)
    (hnone : Q (.ok none) w) (hok : Q (.ok (w.files p)) w) :
    Spec (mayHappen process groups) J (nodeAt p) Q w := by
  rw [nodeAt, spec_bind, spec_attempt]
  exact spec_lstat hw (fun _ => hnone) hok

theorem spec_nodeAt_require {α : Type} {p : Place} {f : Node → Bool} {e : InstallerError}
    {k : Program α} {Q : Except InstallerError α → World → Prop} (hw : J w) (herr : Q (.error e) w)
    (hok : ∀ node, w.files p = some node → f node = true → Spec (mayHappen process groups) J k Q w) :
    Spec (mayHappen process groups) J (do
      let node ← nodeAt p
      require (node.any f) e
      k) Q w := by
  rw [spec_bind]
  apply spec_nodeAt hw
  · simpa using herr
  · dsimp only
    rw [spec_bind, spec_require]
    cases hnode : w.files p with
    | none => simpa using herr
    | some node =>
        by_cases hf : f node = true
        · simpa [hf] using hok node hnode hf
        · simpa [hf] using herr

/-! ## What a check has seen -/

/-- A file of the helper's kind with a content of the hash. -/
structure IsHelperFile (security : Security) (sha256 : ByteArray → String) (hash : String)
    (node : Node) : Prop where
  isHelper : isHelper security node = true
  content : ∃ content, node.content? = some content ∧ sha256 content = hash

/-- The record at its path is that of the file at the helper's path. -/
def RecordMatches (security : Security) (sha256 : ByteArray → String) (d : Files Place) : Prop :=
  ∃ recorded data state node, d .state = some recorded ∧ recorded.content? = some data ∧
    InstallationState.decode data = some state ∧ d .helper = some node ∧
    IsHelperFile security sha256 state.helperSHA256 node

/-- A candidate that was verified is the file of the manifest, with the group. -/
theorem spec_verifyCandidate {p : Place} {hash : String} {gid : Nat} (hw : J w) :
    Spec (mayHappen process groups) J (verifyCandidate security sha256 p hash gid) (fun o w' =>
      w' = w ∧ (o = .ok () → ∃ node, w.files p = some node ∧ node.gid = gid ∧
        IsHelperFile security sha256 hash node)) w := by
  apply spec_nodeAt_require hw
  · simp
  · intro node hnode hchecks
    rw [spec_bind, spec_orThrow]
    apply spec_read hw
    · simp
    · intro node' content hnode' hcontent
      have hsame : node = node' := Option.some.inj (hnode.symm.trans hnode')
      rw [← hsame] at hcontent
      simp only [Bool.and_eq_true, decide_eq_true_eq] at hchecks
      by_cases hhash : sha256 content = hash
      · simpa [hhash, hnode] using ⟨hchecks.2, hchecks.1, content, hcontent, hhash⟩
      · simp [hhash]

/-- Where the record and the helper are valid, the helper has the recorded hash. -/
theorem spec_validateStateAndHelper (hw : J w) :
    Spec (mayHappen process groups) J (validateStateAndHelper security sha256) (fun o w' =>
      w' = w ∧ (o = .ok () → RecordMatches security sha256 w.files)) w := by
  apply spec_nodeAt_require hw
  · simp
  intro recorded hrecorded _
  rw [spec_bind, spec_orThrow]
  apply spec_read hw
  · simp
  intro node data hnode hdata
  obtain rfl : recorded = node := Option.some.inj (hrecorded.symm.trans hnode)
  dsimp only
  cases hstate : InstallationState.decode data with
  | none => simp
  | some state =>
      dsimp only
      apply spec_nodeAt_require hw
      · simp
      intro _ _ _
      apply spec_nodeAt_require hw
      · simp
      intro _ _ _
      apply spec_nodeAt_require hw
      · simp
      intro helper hhelper hchecks
      rw [spec_bind, spec_orThrow]
      apply spec_read hw
      · simp
      intro node content hnode' hcontent
      obtain rfl : helper = node := Option.some.inj (hhelper.symm.trans hnode')
      by_cases hhash : sha256 content = state.helperSHA256
      · simpa [hhash] using ⟨recorded, data, state, helper, hrecorded, hdata, hstate, hhelper,
          ⟨hchecks, content, hcontent, hhash⟩⟩
      · simp [hhash]

/-! ## What runs keep -/

/-- A file that the run may put at the helper's path: checked against a manifest and a
group that the run has validated. -/
structure Placed (security : Security) (sha256 : ByteArray → String) (w : World) (node : Node) :
    Prop where
  content : ∃ content, node.content? = some content ∧
    ∃ manifest ∈ w.validated, sha256 content = manifest.helperSHA256
  mode : node.mode = 0o4750
  owner : node.uid = security.expectedUID
  group : node.gid ∈ w.groups

/-- What is at the helper's path was there when the run began, or the run has put it there. -/
def Kept (security : Security) (sha256 : ByteArray → String) (start : Files Place) (w : World) :
    Prop :=
  ∀ node, w.files .helper = some node →
    (w.placed = false ∧ start .helper = some node) ∨
      (w.placed = true ∧ Placed security sha256 w node)

/-- The calls that cannot put a file at the helper's path. -/
def Harmless : Call → Prop
  | .files c => places c = false
  | _ => True

/-- What has been validated stays so. -/
theorem validated_mayHappen {c : Call} {r : Except InstallerError (Answer c)}
    (h : mayHappen process groups w c r w') :
    w.validated ⊆ w'.validated ∧ w.groups ⊆ w'.groups := by
  cases c with
  | validateBundle =>
      rcases h with ⟨manifest, _, rfl⟩ | ⟨_, rfl⟩
      · exact ⟨List.subset_cons_self _ _, List.Subset.refl _⟩
      · exact ⟨List.Subset.refl _, List.Subset.refl _⟩
  | validateGroup =>
      rcases h with ⟨gid, _, _, rfl⟩ | ⟨_, rfl⟩
      · exact ⟨List.Subset.refl _, List.subset_cons_self _ _⟩
      · exact ⟨List.Subset.refl _, List.Subset.refl _⟩
  | readSource => cases h; exact ⟨List.Subset.refl _, List.Subset.refl _⟩
  | flock => cases h; exact ⟨List.Subset.refl _, List.Subset.refl _⟩
  | files c =>
      obtain ⟨_, _, rfl⟩ := h
      exact ⟨List.Subset.refl _, List.Subset.refl _⟩

/-- A harmless call leaves what is at the helper's path, or removes it. -/
theorem helper_of_harmless {c : Call} {r : Except InstallerError (Answer c)} (hc : Harmless c)
    (h : mayHappen process groups w c r w') :
    w'.placed = w.placed ∧
      (w'.files .helper = w.files .helper ∨ w'.files .helper = none) := by
  cases c with
  | validateBundle =>
      rcases h with ⟨manifest, _, rfl⟩ | ⟨_, rfl⟩
      · exact ⟨rfl, .inl rfl⟩
      · exact ⟨rfl, .inl rfl⟩
  | validateGroup =>
      rcases h with ⟨gid, _, _, rfl⟩ | ⟨_, rfl⟩
      · exact ⟨rfl, .inl rfl⟩
      · exact ⟨rfl, .inl rfl⟩
  | readSource => cases h; exact ⟨rfl, .inl rfl⟩
  | flock => cases h; exact ⟨rfl, .inl rfl⟩
  | files c =>
      obtain ⟨files, hcall, rfl⟩ := h
      simp only [Harmless] at hc
      rw [hc, Bool.and_false, Bool.or_false]
      refine ⟨rfl, ?_⟩
      by_cases htouches : Place.helper ∈ c.touches
      · -- only a removal touches the helper's path
        cases c with
        | remove p =>
            obtain rfl : Place.helper = p := by simpa [Disk.Call.touches] using htouches
            rcases hcall with ⟨a, heffect, _⟩ | ⟨_, rfl | ⟨_, _, _, _, hc, _⟩⟩
            · simp only [Disk.effect, Option.bind_eq_some_iff, Option.ite_none_left_eq_some,
                Option.some.injEq, Prod.mk.injEq] at heffect
              obtain ⟨_, _, _, _, rfl⟩ := heffect
              simp
            · exact .inl rfl
            · cases hc
        | _ => simp [places, htouches] at hc
      · exact .inl (Disk.mayFail_frame _ _ _ hcall htouches)

theorem Placed.mono {node : Node} (h : Placed security sha256 w node)
    (hvalidated : w.validated ⊆ w'.validated) (hgroups : w.groups ⊆ w'.groups) :
    Placed security sha256 w' node := by
  obtain ⟨content, hcontent, manifest, hmanifest, hhash⟩ := h.content
  exact ⟨⟨content, hcontent, manifest, hvalidated hmanifest, hhash⟩, h.mode, h.owner,
    hgroups h.group⟩

theorem Kept.step {start : Files Place} {c : Call} {r : Except InstallerError (Answer c)}
    (hkept : Kept security sha256 start w) (hc : Harmless c)
    (h : mayHappen process groups w c r w') : Kept security sha256 start w' := by
  intro node hnode
  obtain ⟨hplaced, hsame | hnone⟩ := helper_of_harmless hc h
  · rw [hplaced]
    rw [hsame] at hnode
    obtain ⟨hvalidated, hgroups⟩ := validated_mayHappen h
    exact (hkept node hnode).imp id fun ⟨htrue, hnode⟩ => ⟨htrue, hnode.mono hvalidated hgroups⟩
  · rw [hnone] at hnode
    cases hnode

/-- The state of a run that has validated the manifest and the group. -/
structure Ready (security : Security) (sha256 : ByteArray → String) (start : Files Place)
    (manifest : Manifest) (gid : Nat) (w : World) : Prop where
  kept : Kept security sha256 start w
  manifest : manifest ∈ w.validated
  group : gid ∈ w.groups

theorem Ready.step {start : Files Place} {manifest : Manifest} {gid : Nat} {c : Call}
    {r : Except InstallerError (Answer c)} (hready : Ready security sha256 start manifest gid w)
    (hc : Harmless c) (h : mayHappen process groups w c r w') :
    Ready security sha256 start manifest gid w' := by
  obtain ⟨hvalidated, hgroups⟩ := validated_mayHappen h
  exact ⟨hready.kept.step hc h, hvalidated hready.manifest, hgroups hready.group⟩

/-! ## The harmless parts -/

theorem only_files {c : Disk.Call Place} (hc : places c = false) : Only Harmless (perform c) :=
  only_perform.mpr hc

theorem only_lstat {p : Place} : Only Harmless (lstat p) := only_files rfl

theorem only_nodeAt {p : Place} : Only Harmless (nodeAt p) :=
  Only.bind (only_attempt.mpr only_lstat) fun o => by cases o <;> simp

theorem only_validateFixedDirectory {p : Place} :
    Only Harmless (validateFixedDirectory security p) :=
  Only.bind only_nodeAt fun _ => only_require

theorem only_ensureStateDirectory : Only Harmless (ensureStateDirectory security) := by
  refine Only.bind only_validateFixedDirectory fun _ => ?_
  refine Only.bind (only_orThrow only_lstat) fun node => ?_
  cases node with
  | none => exact Only.bind (only_files rfl) fun _ => only_files rfl
  | some node => exact only_require

theorem only_acquireInstallLock : Only Harmless (acquireInstallLock security) := by
  refine Only.bind (only_orThrow (only_files rfl)) fun node => ?_
  refine Only.bind only_require fun _ => ?_
  exact only_orThrow (only_perform.mpr trivial)

theorem only_validateParents : Only Harmless (validateParents security) := by
  refine Only.bind only_validateFixedDirectory fun _ => ?_
  refine Only.bind only_validateFixedDirectory fun _ => ?_
  refine Only.bind (only_orThrow only_lstat) fun node => ?_
  cases node with
  | none => exact Only.bind (only_files rfl) fun _ => only_files rfl
  | some node => exact only_require

theorem only_validateStateAndHelper : Only Harmless (validateStateAndHelper security sha256) := by
  refine Only.bind only_nodeAt fun _ => Only.bind only_require fun _ => ?_
  refine Only.bind (only_orThrow (only_files rfl)) fun data => ?_
  cases InstallationState.decode data with
  | none => simp
  | some state =>
      refine Only.bind only_nodeAt fun _ => Only.bind only_require fun _ => ?_
      refine Only.bind only_nodeAt fun _ => Only.bind only_require fun _ => ?_
      refine Only.bind only_nodeAt fun _ => Only.bind only_require fun _ => ?_
      exact Only.bind (only_orThrow (only_files rfl)) fun _ => only_require

theorem only_validateExistingTarget : Only Harmless (validateExistingTarget security sha256) := by
  refine Only.bind (only_orThrow only_lstat) fun node => ?_
  cases node with
  | none =>
      refine Only.bind (only_attempt.mpr only_lstat) fun o => ?_
      rcases o with e | _ | node <;> simp
  | some node => exact Only.bind only_require fun _ => only_validateStateAndHelper

theorem only_validateTargetGroup {gid : Nat} : Only Harmless (validateTargetGroup gid) := by
  refine Only.bind only_nodeAt fun node => ?_
  cases node with
  | none => simp
  | some node => exact only_require

theorem only_removeSafeCandidate {p : Place} {mode : Nat} :
    Only Harmless (removeSafeCandidate security p mode) := by
  refine Only.bind (only_orThrow only_lstat) fun node => ?_
  cases node with
  | none => simp
  | some node => exact Only.bind only_require fun _ => only_files rfl

theorem only_verifyCandidate {p : Place} {hash : String} {gid : Nat} :
    Only Harmless (verifyCandidate security sha256 p hash gid) := by
  refine Only.bind only_nodeAt fun _ => Only.bind only_require fun _ => ?_
  exact Only.bind (only_orThrow (only_files rfl)) fun _ => only_require

theorem only_writeInstallationState {manifest : Manifest} :
    Only Harmless (writeInstallationState security manifest) := by
  refine Only.bind only_removeSafeCandidate fun _ => ?_
  refine Only.bind (only_files rfl) fun _ => ?_
  refine only_deferring ?_ (only_files rfl)
  refine Only.bind (only_files rfl) fun _ => ?_
  refine Only.bind (only_files rfl) fun _ => ?_
  refine Only.bind (only_files rfl) fun _ => ?_
  refine Only.bind (only_files rfl) fun _ => ?_
  refine Only.bind (only_files rfl) fun _ => ?_
  exact only_files rfl

theorem only_reconcileState {manifest : Manifest} {gid : Nat} {p : Place} :
    Only Harmless (reconcileState security sha256 manifest gid p) :=
  Only.bind only_verifyCandidate fun _ => only_writeInstallationState

theorem only_isUnrecorded : Only Harmless isUnrecorded := by
  refine Only.bind (only_attempt.mpr only_lstat) fun o => ?_
  rcases o with e | _ | node
  · simp
  · simp
  · refine Only.bind (only_attempt.mpr only_lstat) fun o => ?_
    rcases o with e | _ | node <;> simp

theorem only_removeInstallation : Only Harmless removeInstallation := by
  refine Only.bind (only_files rfl) fun _ => ?_
  refine Only.bind (only_files rfl) fun _ => ?_
  refine Only.bind (only_files rfl) fun _ => ?_
  refine Only.bind (only_files rfl) fun _ => ?_
  refine Only.bind (only_files rfl) fun _ => ?_
  refine Only.bind (only_attempt.mpr (only_files rfl)) fun o => ?_
  cases o with
  | ok _ => simp
  | error e =>
      refine Only.bind (only_attempt.mpr only_lstat) fun o => ?_
      rcases o with e | _ | node <;> simp

/-! ## The part that puts the helper at its path -/

/-- Renaming a file that was checked. -/
theorem Ready.rename {start : Files Place} {manifest : Manifest} {gid : Nat} {node : Node}
    {r : Except InstallerError Unit} (hready : Ready security sha256 start manifest gid w)
    (hnode : w.files .candidate = some node) (hgid : node.gid = gid)
    (hfile : IsHelperFile security sha256 manifest.helperSHA256 node)
    (h : mayHappen process groups w (.files (.rename .candidate .helper)) r w') :
    Ready security sha256 start manifest gid w' := by
  obtain ⟨files, hcall, rfl⟩ := h
  refine ⟨fun node' hnode' => ?_, hready.manifest, hready.group⟩
  rcases hcall with ⟨a, heffect, rfl⟩ | ⟨rfl, rfl | ⟨_, _, _, _, hc, _⟩⟩
  · simp only [Disk.effect, Option.map_eq_some_iff, Prod.mk.injEq] at heffect
    obtain ⟨moved, hmoved, _, rfl⟩ := heffect
    rw [hnode] at hmoved
    cases hmoved
    have hsame : node = node' := by simpa using hnode'
    rw [← hsame]
    obtain ⟨content, hcontent, hhash⟩ := hfile.content
    have hchecks := hfile.isHelper
    simp only [isHelper, Bool.and_eq_true, decide_eq_true_eq] at hchecks
    refine .inr ⟨by simp [places, Disk.Call.touches, Except.toBool], ?_⟩
    exact ⟨⟨content, hcontent, manifest, hready.manifest, hhash⟩, hchecks.1.1.2, hchecks.2,
      hgid ▸ hready.group⟩
  · simpa [Except.toBool] using hready.kept node' hnode'
  · cases hc

theorem spec_placeCandidate {start : Files Place} {manifest : Manifest} {gid : Nat}
    {data : ByteArray} (hready : Ready security sha256 start manifest gid w) :
    Spec (mayHappen process groups) (Ready security sha256 start manifest gid)
      (placeCandidate security sha256 manifest gid data)
      (fun _ => Ready security sha256 start manifest gid) w := by
  have hharmless : ∀ w c r w', Harmless c → Ready security sha256 start manifest gid w →
      mayHappen process groups w c r w' → Ready security sha256 start manifest gid w' :=
    fun _ _ _ _ hc hready h => hready.step hc h
  rw [placeCandidate]
  refine Spec.bind_of_only (only_files rfl) hharmless (fun _ h => h) hready ?_ fun _ _ h => h
  intro _ w₁ hready
  refine Spec.bind_of_only (only_files rfl) hharmless (fun _ h => h) hready ?_ fun _ _ h => h
  intro _ w₂ hready
  refine Spec.bind_of_only (only_files rfl) hharmless (fun _ h => h) hready ?_ fun _ _ h => h
  intro _ w₃ hready
  refine Spec.bind_of_only (only_files rfl) hharmless (fun _ h => h) hready ?_ fun _ _ h => h
  intro _ w₄ hready
  -- the candidate that is renamed is the one that was checked
  rw [spec_bind]
  refine (spec_verifyCandidate hready).mono (fun _ h => h) fun o w₅ ho => ?_
  obtain ⟨rfl, hchecked⟩ := ho
  cases o with
  | error e => exact hready
  | ok _ =>
      obtain ⟨node, hnode, hgid, hfile⟩ := hchecked rfl
      dsimp only
      rw [perform, spec_perform]
      intro r w' hr
      have hready' := hready.rename hnode hgid hfile hr
      exact ⟨hready', hready'⟩

theorem spec_installCandidate {start : Files Place} {manifest : Manifest} {gid : Nat}
    (hready : Ready security sha256 start manifest gid w) :
    Spec (mayHappen process groups) (Ready security sha256 start manifest gid)
      (installCandidate security sha256 manifest gid)
      (fun _ => Ready security sha256 start manifest gid) w := by
  have hharmless : ∀ w c r w', Harmless c → Ready security sha256 start manifest gid w →
      mayHappen process groups w c r w' → Ready security sha256 start manifest gid w' :=
    fun _ _ _ _ hc hready h => hready.step hc h
  rw [installCandidate]
  refine Spec.bind_of_only (only_perform.mpr trivial) hharmless (fun _ h => h) hready ?_
    fun _ _ h => h
  intro data w₁ hready
  refine Spec.bind_of_only only_removeSafeCandidate hharmless (fun _ h => h) hready ?_
    fun _ _ h => h
  intro _ w₂ hready
  refine Spec.bind_of_only (only_files rfl) hharmless (fun _ h => h) hready ?_ fun _ _ h => h
  intro _ w₃ hready
  rw [spec_bind, spec_onFailure]
  refine (spec_placeCandidate hready).mono (fun _ h => h) fun o w₄ hready => ?_
  cases o with
  | error e =>
      exact (spec_of_only (only_files rfl) hharmless hready).mono (fun _ h => h) fun _ _ h => h
  | ok _ =>
      refine Spec.bind_of_only (only_files rfl) hharmless (fun _ h => h) hready ?_ fun _ _ h => h
      intro _ w₅ hready
      refine Spec.bind_of_only only_writeInstallationState hharmless (fun _ h => h) hready ?_
        fun _ _ h => h
      intro _ w₆ hready
      exact spec_of_only only_validateStateAndHelper hharmless hready

theorem spec_installManaged {start : Files Place} {manifest : Manifest} {gid : Nat}
    (hready : Ready security sha256 start manifest gid w) :
    Spec (mayHappen process groups) (Ready security sha256 start manifest gid)
      (installManaged security sha256 manifest gid)
      (fun _ => Ready security sha256 start manifest gid) w := by
  have hharmless : ∀ w c r w', Harmless c → Ready security sha256 start manifest gid w →
      mayHappen process groups w c r w' → Ready security sha256 start manifest gid w' :=
    fun _ _ _ _ hc hready h => hready.step hc h
  rw [installManaged]
  refine Spec.bind_of_only (only_attempt.mpr only_validateParents) hharmless (fun _ h => h) hready
    ?_ fun _ _ h => h
  intro o w₁ hready
  cases o with
  | error e => exact hready
  | ok _ =>
  refine Spec.bind_of_only only_isUnrecorded hharmless (fun _ h => h) hready ?_ fun _ _ h => h
  intro unrecorded w₂ hready
  cases unrecorded with
  | true =>
      refine Spec.bind_of_only (only_attempt.mpr only_reconcileState) hharmless (fun _ h => h)
        hready ?_ fun _ _ h => h
      intro o w₃ hready
      cases o with
      | ok _ => exact hready
      | error e => cases e <;> exact hready
  | false =>
      refine Spec.bind_of_only (only_attempt.mpr only_validateExistingTarget) hharmless
        (fun _ h => h) hready ?_ fun _ _ h => h
      intro o w₃ hready
      cases o with
      | error e => exact hready
      | ok _ =>
      refine Spec.bind_of_only (only_attempt.mpr only_validateTargetGroup) hharmless
        (fun _ h => h) hready ?_ fun _ _ h => h
      intro o w₄ hready
      cases o with
      | error e => exact hready
      | ok _ =>
      dsimp only
      rw [spec_bind, spec_attempt]
      refine (spec_installCandidate hready).mono (fun _ h => h) fun o w₅ hready => ?_
      cases o with
      | error e => exact hready
      | ok _ => exact hready

theorem spec_install {start : Files Place} (hkept : Kept security sha256 start w) :
    Spec (mayHappen process groups) (Kept security sha256 start) (install security sha256)
      (fun _ => Kept security sha256 start) w := by
  have hharmless : ∀ w c r w', Harmless c → Kept security sha256 start w →
      mayHappen process groups w c r w' → Kept security sha256 start w' :=
    fun _ _ _ _ hc hkept h => hkept.step hc h
  rw [install]
  refine Spec.bind_of_only (only_attempt.mpr (only_perform.mpr trivial)) hharmless (fun _ h => h)
    hkept ?_ fun _ _ h => h
  intro o w₁ hkept
  cases o with
  | error e => exact hkept
  | ok _ =>
  refine Spec.bind_of_only (only_attempt.mpr only_ensureStateDirectory) hharmless (fun _ h => h)
    hkept ?_ fun _ _ h => h
  intro o w₂ hkept
  cases o with
  | error e => exact hkept
  | ok _ =>
  refine Spec.bind_of_only (only_attempt.mpr only_acquireInstallLock) hharmless (fun _ h => h)
    hkept ?_ fun _ _ h => h
  intro o w₃ hkept
  cases o with
  | error e => exact hkept
  | ok _ =>
  -- from here on the run has its manifest
  dsimp only
  rw [spec_bind, spec_attempt, spec_perform]
  intro o w₄ hbundle
  have hkept₄ := hkept.step (c := .validateBundle) trivial hbundle
  rcases hbundle with ⟨manifest, rfl, rfl⟩ | ⟨rfl, rfl⟩
  · refine ⟨hkept₄, ?_⟩
    dsimp only
    rw [spec_bind, spec_attempt, spec_perform]
    intro o w₅ hgroup
    have hkept₅ := hkept₄.step (c := .validateGroup) trivial hgroup
    rcases hgroup with ⟨gid, _, rfl, rfl⟩ | ⟨rfl | rfl, rfl⟩
    · refine ⟨hkept₅, ?_⟩
      have hready : Ready security sha256 start manifest gid
          { w₃ with validated := manifest :: w₃.validated, groups := gid :: w₃.groups } :=
        ⟨hkept₅, List.mem_cons_self, List.mem_cons_self⟩
      exact (spec_installManaged hready).mono (fun _ h => h.kept) fun _ _ h => h.kept
    · exact ⟨hkept₅, hkept₅⟩
    · exact ⟨hkept₅, hkept₅⟩
  · exact ⟨hkept₄, hkept₄⟩

theorem only_uninstall : Only Harmless (uninstall security sha256) := by
  refine Only.bind (only_attempt.mpr only_acquireInstallLock) fun o => ?_
  cases o with
  | error e => trivial
  | ok _ =>
  refine Only.bind (only_attempt.mpr (only_perform.mpr trivial)) fun o => ?_
  cases o with
  | error e => trivial
  | ok gid =>
  refine Only.bind (only_attempt.mpr only_validateStateAndHelper) fun o => ?_
  cases o with
  | error e => trivial
  | ok _ =>
  refine Only.bind (only_attempt.mpr only_validateTargetGroup) fun o => ?_
  cases o with
  | error e => trivial
  | ok _ =>
  refine Only.bind (only_attempt.mpr only_removeInstallation) fun o => ?_
  cases o <;> trivial

theorem only_verify : Only Harmless (verify security sha256) := by
  refine Only.bind (only_attempt.mpr (only_perform.mpr trivial)) fun o => ?_
  cases o with
  | error e => trivial
  | ok _ =>
  refine Only.bind (only_attempt.mpr (only_perform.mpr trivial)) fun o => ?_
  cases o with
  | error e => trivial
  | ok gid =>
  refine Only.bind (only_attempt.mpr only_lstat) fun o => ?_
  rcases o with e | _ | node
  · trivial
  · trivial
  refine Only.bind (only_attempt.mpr only_acquireInstallLock) fun o => ?_
  cases o with
  | error e => trivial
  | ok _ =>
  refine Only.bind (only_attempt.mpr only_validateStateAndHelper) fun o => ?_
  cases o with
  | error e => cases e <;> trivial
  | ok _ =>
  refine Only.bind (only_attempt.mpr only_validateTargetGroup) fun o => ?_
  cases o <;> trivial

/-- Every action keeps what is at the helper's path, or puts a checked file there. -/
theorem spec_action {start : Files Place} (action : Action)
    (hkept : Kept security sha256 start w) :
    Spec (mayHappen process groups) (Kept security sha256 start) (action.program security sha256)
      (fun _ => Kept security sha256 start) w := by
  cases action with
  | install => exact spec_install hkept
  | uninstall => exact spec_of_only only_uninstall (fun _ _ _ _ hc h hr => h.step hc hr) hkept
  | verify => exact spec_of_only only_verify (fun _ _ _ _ hc h hr => h.step hc hr) hkept

/-! ## Sequences of runs -/

/-- The state of the host at the beginning of a run. -/
def World.begin (d : Files Place) : World := ⟨d, [], [], false⟩

/-- The disks that runs lead to, each cut short anywhere or not at all; the worlds are where
the runs have stopped, the latest first. -/
inductive Sequence (security : Security) (sha256 : ByteArray → String) (groups : Nat → Prop)
    (start : Files Place) : Files Place → List World → Prop where
  | nil : Sequence security sha256 groups start start []
  | run {d ws w process} (action : Action) : Sequence security sha256 groups start d ws →
      Reach (mayHappen process groups) (action.program security sha256) (.begin d) w →
      Sequence security sha256 groups start w.files (w :: ws)

theorem kept_of_reach {d : Files Place} {action : Action}
    (h : Reach (mayHappen process groups) (action.program security sha256) (.begin d) w) :
    Kept security sha256 d w := by
  have hbegin : Kept security sha256 d (.begin d) := fun node hnode => .inl ⟨rfl, hnode⟩
  exact (spec_action action hbegin).reach hbegin h

/-- What is at the helper's path has been there from the start, or one of the runs has put
it there. -/
theorem placed_of_sequence {start d : Files Place} {ws : List World}
    (h : Sequence security sha256 groups start d ws) {node : Node} (hnode : d .helper = some node) :
    (start .helper = some node ∧ ∀ w ∈ ws, w.placed = false) ∨
      ∃ w ∈ ws, w.placed = true ∧ Placed security sha256 w node := by
  induction h with
  | nil => exact .inl ⟨hnode, by simp⟩
  | @run d ws w process action _ hrun ih =>
      rcases kept_of_reach hrun node hnode with ⟨hplaced, hold⟩ | hnew
      · rcases ih hold with ⟨hstart, hws⟩ | ⟨w', hw', hchecked⟩
        · exact .inl ⟨hstart, by simpa [hplaced] using hws⟩
        · exact .inr ⟨w', List.mem_cons_of_mem _ hw', hchecked⟩
      · exact .inr ⟨w, List.mem_cons_self, hnew⟩

/-- A verification that answers valid leaves a disk whose record is that of the helper. -/
theorem recordMatches_of_verify {e : Option InstallerError}
    (h : Exec (mayHappen process groups) (verify security sha256) w (.ok (.valid, e)) w') :
    RecordMatches security sha256 w'.files := by
  have hspec : Spec (mayHappen process groups) (fun _ => True) (verify security sha256)
      (fun o w' => o = .ok (.valid, e) → RecordMatches security sha256 w'.files) w := by
    rw [verify, spec_bind]
    refine (Spec.trivial _).mono (fun _ h => h) fun o w₁ _ => ?_
    rcases o with _ | _ | _
    · simp
    · simp
    dsimp only
    rw [spec_bind]
    refine (Spec.trivial _).mono (fun _ h => h) fun o w₂ _ => ?_
    rcases o with _ | e' | gid
    · simp
    · cases e' <;> simp [groupResult]
    dsimp only
    rw [spec_bind]
    refine (Spec.trivial _).mono (fun _ h => h) fun o w₃ _ => ?_
    rcases o with _ | _ | _ | _
    · simp
    · simp
    · simp
    dsimp only
    rw [spec_bind]
    refine (Spec.trivial _).mono (fun _ h => h) fun o w₄ _ => ?_
    rcases o with _ | _ | _
    · simp
    · simp
    -- what has been checked is not changed any more
    dsimp only
    rw [spec_bind, spec_attempt]
    refine (spec_validateStateAndHelper True.intro).mono (fun _ h => h) fun o w₅ ho => ?_
    obtain ⟨rfl, hmatches⟩ := ho
    cases o with
    | error e' => cases e' <;> simp
    | ok _ =>
        dsimp only
        rw [spec_bind, spec_attempt, validateTargetGroup, spec_bind]
        apply spec_nodeAt True.intro
        · simpa using fun _ => hmatches rfl
        · dsimp only
          cases w₅.files .helper with
          | none => simpa using fun _ => hmatches rfl
          | some node =>
              rw [spec_require]
              split
              · simpa using fun _ => hmatches rfl
              · simp
  exact hspec.exec h rfl

/-- A host on which every call works, with this bundle and an empty helper. -/
def workingAnswer (manifest : Manifest) (w : World) : (c : Call) → Except InstallerError (Answer c) × World
  | .validateBundle => (.ok manifest, { w with validated := manifest :: w.validated })
  | .validateGroup => (.ok 7, { w with groups := 7 :: w.groups })
  | .readSource => (.ok .empty, w)
  | .flock => (.ok (), w)
  | .files c =>
    let r := Disk.works .os layout ⟨0, 0, id⟩ w.files c
    (r.1, { w with files := r.2, placed := w.placed || (r.1.toBool && places c) })

theorem mayHappen_workingAnswer (manifest : Manifest) (w : World) (c : Call) :
    mayHappen ⟨0, 0, id⟩ (· = 7) w c (workingAnswer manifest w c).1 (workingAnswer manifest w c).2 := by
  cases c with
  | validateBundle => exact .inl ⟨manifest, rfl, rfl⟩
  | validateGroup => exact .inl ⟨7, rfl, rfl, rfl⟩
  | readSource => rfl
  | flock => rfl
  | files c => exact ⟨_, Disk.mayFail_works _ _ _ _ _, rfl⟩

/-- **The helper's path is safe**: at every moment of every sequence of runs, a file that
the installer has put there has the content of a manifest validated in the run that has put
it there, the mode, the owner and the helper group; and a verification answers valid only
where the record's hash is the file's. -/
theorem helper_safe (security : Security) (sha256 : ByteArray → String) (groups : Nat → Prop) :
    (∀ start d ws, Sequence security sha256 groups start d ws → ∀ node, d .helper = some node →
      (start .helper = some node ∧ ∀ w ∈ ws, w.placed = false) ∨
        ∃ w ∈ ws, w.placed = true ∧ Placed security sha256 w node) ∧
    ∀ process w w' e, Exec (mayHappen process groups) (verify security sha256) w
      (.ok (.valid, e)) w' → RecordMatches security sha256 w'.files :=
  ⟨fun _ _ _ h _ hnode => placed_of_sequence h hnode, fun _ _ _ _ h => recordMatches_of_verify h⟩

/-- The disk behind an installation of an empty helper. -/
def installed (manifest : Manifest) : Files Place
  | .usr | .usrLocal | .libexec | .varLib => some ⟨.directory, 0o755, 0, 0, 2⟩
  | .stateDir => some ⟨.directory, 0o700, 0, 0, 2⟩
  | .helper => some ⟨.file .empty, 0o4750, 0, 7, 1⟩
  | .lock => some ⟨.file .empty, 0o600, 0, 0, 1⟩
  | .state => some ⟨.file (InstallationState.ofManifest manifest).encode, 0o600, 0, 0, 1⟩
  | _ => none

theorem naturals_ofManifest (manifest : Manifest) :
    (Json.obj (InstallationState.ofManifest manifest).fields).Naturals := by
  have hone : Json.IsNatural (Protocol.itoa 1) := by
    rw [show Protocol.itoa 1 = ['1'] by decide +kernel]
    simp [Json.IsNatural, Json.isDigit]
  simpa [InstallationState.ofManifest, InstallationState.fields, Json.Naturals,
    Json.FieldNaturals] using hone

theorem ofFields_ofManifest (manifest : Manifest) :
    InstallationState.ofFields (InstallationState.ofManifest manifest).fields =
      some (InstallationState.ofManifest manifest) := by
  have hone : Protocol.exactInteger (some (.num (Protocol.itoa 1))) = some 1 := by
    decide +kernel
  simp [InstallationState.ofFields, InstallationState.ofManifest, InstallationState.fields,
    List.lookup, Protocol.exactString, hone]

/-- The record that is written for a bundle is read back, unless it is too long. -/
theorem decode_ofManifest {manifest : Manifest}
    (h : (InstallationState.ofManifest manifest).encode.size ≤ maxStateBytes) :
    InstallationState.decode (InstallationState.ofManifest manifest).encode =
      some (InstallationState.ofManifest manifest) := by
  have hparse : Json.parse ((Json.obj (InstallationState.ofManifest manifest).fields).print
      Protocol.marshalChar) = some (.obj (InstallationState.ofManifest manifest).fields) := by
    have hparse : Json.parse ((Json.obj (InstallationState.ofManifest manifest).fields).print
        Protocol.marshalChar ++ []) = some (.obj (InstallationState.ofManifest manifest).fields) :=
      Json.parse_print Protocol.escapes_marshalChar (naturals_ofManifest manifest) (by simp)
    rwa [List.append_nil] at hparse
  have hvalid : (InstallationState.ofManifest manifest).valid = true := by
    simp [InstallationState.valid, InstallationState.ofManifest, manifest.version_valid,
      manifest.commit_valid, manifest.sha_valid]
  rw [InstallationState.decode, if_neg (Nat.not_lt.mpr h)]
  simp only [InstallationState.encode, Json.fromUTF8?_toByteArray]
  simp [hparse, ofFields_ofManifest, hvalid]

/-- Where the record is not too long, a verification of the installation answers valid. -/
theorem exec_verify_installed {manifest : Manifest}
    (h : (InstallationState.ofManifest manifest).encode.size ≤ maxStateBytes) :
    ∃ w', Exec (mayHappen ⟨0, 0, id⟩ (· = 7)) (verify ⟨0, 0⟩ fun _ => manifest.helperSHA256)
      (.begin (installed manifest)) (.ok (.valid, none)) w' := by
  have hsha : (InstallationState.ofManifest manifest).helperSHA256 = manifest.helperSHA256 := rfl
  have hvalid : (Prog.run (workingAnswer manifest) (verify ⟨0, 0⟩ fun _ => manifest.helperSHA256)
      (.begin (installed manifest))).1 = .ok (.valid, none) := by
    simp [verify, acquireInstallLock, validateStateAndHelper, validateTargetGroup, lstat, nodeAt,
      orThrow, require, perform, workingAnswer, Disk.works, Disk.effect, installed, World.begin,
      isLock, isStateDirectory, isStateFile, isHelper, hasOwnerAndGroup, Node.isRegular,
      Node.isDirectory, Node.content?, Node.perm, decode_ofManifest h, hsha]
  have hexec := Prog.exec_run (mayHappen_workingAnswer manifest)
    (verify ⟨0, 0⟩ fun _ => manifest.helperSHA256) (.begin (installed manifest))
  rw [hvalid] at hexec
  exact ⟨_, hexec⟩

/-- A first installation on a host with its directories, cut short right behind the rename; and the
verification of an installation, which answers valid. -/
theorem helper_safe_first_install :
    let security : Security := ⟨0, 0⟩
    let hash := "e3b0c44298fc1c149afbf4c8996fb92427ae41e4649b934ca495991b7852b855"
    let sha256 : ByteArray → String := fun _ => hash
    let start : Files Place := fun p =>
      if p = .varLib ∨ p = .usr ∨ p = .usrLocal then some ⟨.directory, 0o755, 0, 0, 2⟩ else none
    (∃ w, Sequence security sha256 (· = 7) start w.files [w] ∧
      ∃ node, w.files .helper = some node ∧ Placed security sha256 w node) ∧
    ∃ manifest w', manifest.helperSHA256 = hash ∧
      Exec (mayHappen ⟨0, 0, id⟩ (· = 7)) (verify security sha256) (.begin (installed manifest))
        (.ok (.valid, none)) w' ∧ RecordMatches security sha256 w'.files := by
  intro security hash sha256 start
  let manifest : Manifest :=
    ⟨"1.0.0", "0123456789abcdef0123456789abcdef01234567", hash, by decide +kernel,
      by decide +kernel, by decide +kernel⟩
  constructor
  · let w := stopAfter (workingAnswer manifest) 28 (install security sha256) (.begin start)
    have hsequence : Sequence security sha256 (· = 7) start w.files [w] :=
      .run .install .nil (reach_stopAfter (mayHappen_workingAnswer manifest) 28 _ _)
    have hplaced : (w.files .helper).isSome = true := by decide +kernel
    obtain ⟨node, hnode⟩ := Option.isSome_iff_exists.mp hplaced
    refine ⟨w, hsequence, node, hnode, ?_⟩
    rcases (helper_safe security sha256 (· = 7)).1 start w.files [w] hsequence node hnode with
      ⟨hstart, _⟩ | ⟨w', hw', _, hchecked⟩
    · simp [start] at hstart
    · simpa [List.mem_singleton.mp hw'] using hchecked
  · have hlength : ((Json.obj (InstallationState.ofManifest manifest).fields).print
        Protocol.marshalChar).length ≤ 1000 := by
      simp only [InstallationState.fields, InstallationState.ofManifest, Json.print,
        Json.printFields, Json.quote, manifest, hash, InstallPath, InstallGroup, InstallMode,
        String.reduceToList]
      decide +kernel
    have hsmall : (InstallationState.ofManifest manifest).encode.size ≤ maxStateBytes := by
      have hsize := (Json.size_toByteArray ((Json.obj
        (InstallationState.ofManifest manifest).fields).print Protocol.marshalChar ++ ['\n'])).2
      rw [List.length_append, List.length_singleton] at hsize
      exact hsize.trans (by rw [maxStateBytes]; omega)
    obtain ⟨w', hverify⟩ := exec_verify_installed hsmall
    exact ⟨manifest, w', rfl, hverify, (helper_safe security sha256 (· = 7)).2 _ _ _ _ hverify⟩

end Safety

end AtlasManager.PowerHelper.Installer
