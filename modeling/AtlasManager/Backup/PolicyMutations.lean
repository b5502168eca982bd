import AtlasManager.Backup.TargetPolicies

/-!
# AtlasManager.Backup.PolicyMutations

Changes of the policies of the targets: the catalog is changed first, and changed
back when the policies cannot be saved.

* `setBackupSchedule`, `removeBackupSchedule`, `setBackupRetention` -- the changes;
* `catalog_of_failure` -- a change that fails leaves the catalog and the file as they were;
* `recovers_iff` -- when a later change is possible again, and what is saved is loaded.
-/

namespace AtlasManager.Backup

open AtlasManager.Lib AtlasManager.Scheduling FileBackupTargetPolicyStore

/-! ## The catalog -/

/-- The targets of a catalog have different names. -/
structure Catalog where
  targets : List BackupTarget
  unique : (targets.map (·.id)).Nodup

namespace Catalog

def findById (catalog : Catalog) (id : String) : Option BackupTarget :=
  catalog.targets.find? fun target => target.id = id

/-- The catalog with a target in place of the one of its name. -/
def replace (catalog : Catalog) (next : BackupTarget) : Catalog where
  targets := catalog.targets.map fun item => if item.id = next.id then next else item
  unique := by
    have hids : (catalog.targets.map fun item => if item.id = next.id then next else item).map
        (·.id) = catalog.targets.map (·.id) := by
      rw [List.map_map]
      refine List.map_congr_left fun item _ => ?_
      simp only [Function.comp_apply]
      split
      · next h => exact h.symm
      · rfl
    rw [hids]
    exact catalog.unique

/-- The changed target and the catalog with it; `none` when there is no such target. -/
def update (catalog : Catalog) (id : String) (change : BackupTarget → BackupTarget) :
    Option (BackupTarget × Catalog) :=
  (catalog.findById id).map fun target => (change target, catalog.replace (change target))

def updateSchedule (catalog : Catalog) (id : String) (schedule : BackupSchedule) :
    Option (BackupTarget × Catalog) :=
  catalog.update id fun target => { target with schedule }

def updateRetention (catalog : Catalog) (id : String) (retention : BackupRetentionPolicy) :
    Option (BackupTarget × Catalog) :=
  catalog.update id fun target => { target with retention }

end Catalog

/-! ## Saving -/

/-- What a `writeFile` that throws has left: no file, or a file with a part of the text. -/
inductive WriteFault where
  | notCreated
  | partlyWritten (content : Content JsValue)

/-- Which calls of the file system fail while the policies are saved. -/
structure SaveFaults where
  makeDirectory : Bool
  changeDirectoryMode : Bool
  writeTemporary : Option WriteFault
  changeTemporaryMode : Bool
  rename : Bool

namespace SaveFaults

/-- No call fails. -/
def none : SaveFaults := ⟨false, false, .none, false, false⟩

/-- Does a call fail? -/
def any (faults : SaveFaults) : Bool :=
  faults.makeDirectory || faults.changeDirectoryMode || faults.writeTemporary.isSome ||
    faults.changeTemporaryMode || faults.rename

/-- Is the temporary file created and not renamed? -/
def leaveTemporary (faults : SaveFaults) : Bool :=
  !faults.makeDirectory && !faults.changeDirectoryMode &&
    match faults.writeTemporary with
    | some .notCreated => false
    | some (.partlyWritten _) => true
    | .none => faults.changeTemporaryMode || faults.rename

end SaveFaults

/-- The policy file, and the temporary file next to it. -/
abbrev PolicyFiles := FileState JsValue

namespace FileBackupTargetPolicyStore

/-- `save`, and whether it returns.  The temporary file must not exist. -/
def save (faults : SaveFaults) (targets : List BackupTarget) (files : PolicyFiles) :
    Bool × PolicyFiles :=
  if faults.makeDirectory then (false, files)
  else if faults.changeDirectoryMode then (false, files)
  else if files.temporary.isSome then (false, files)
  else
    match faults.writeTemporary with
    | some .notCreated => (false, files)
    | some (.partlyWritten content) => (false, { files with temporary := some content })
    | none =>
      let written := { files with temporary := some (.document (policyDocument targets)) }
      if faults.changeTemporaryMode then (false, written)
      else if faults.rename then (false, written)
      else (true, { file := written.temporary, temporary := none })

end FileBackupTargetPolicyStore

/-! ## The changes -/

structure PolicyWorld where
  catalog : Catalog
  files : PolicyFiles

inductive PolicyMutationError where
  | targetNotFound
  | invalid (code : BackupTargetValidationErrorCode)
  | notSaved
  deriving DecidableEq, Repr

/-- Update the catalog and save the policies, or change the catalog back. -/
def updateAndSave (faults : SaveFaults) (update restore : Catalog → Option (BackupTarget × Catalog))
    (world : PolicyWorld) : Except PolicyMutationError BackupTarget × PolicyWorld :=
  match update world.catalog with
  | none => (.error .targetNotFound, world)
  | some (updated, catalog) =>
    match save faults catalog.targets world.files with
    | (true, files) => (.ok updated, { catalog, files })
    | (false, files) =>
      match restore catalog with
      | none => (.error .targetNotFound, { catalog, files })
      | some (_, catalog) => (.error .notSaved, { catalog, files })

def setBackupSchedule (faults : SaveFaults) (id : String) (value : JsValue) (world : PolicyWorld) :
    Except PolicyMutationError BackupSchedule × PolicyWorld :=
  match world.catalog.findById id with
  | none => (.error .targetNotFound, world)
  | some previous =>
    match createBackupSchedule value with
    | .error code => (.error (.invalid code), world)
    | .ok schedule =>
      let (updated, world) := updateAndSave faults (·.updateSchedule id schedule)
        (·.updateSchedule id previous.schedule) world
      (updated.map (·.schedule), world)

def removeBackupSchedule (faults : SaveFaults) (id : String) (world : PolicyWorld) :
    Except PolicyMutationError BackupSchedule × PolicyWorld :=
  match world.catalog.findById id with
  | none => (.error .targetNotFound, world)
  | some previous =>
    let (updated, world) := updateAndSave faults (·.updateSchedule id .manual)
      (·.updateSchedule id previous.schedule) world
    (updated.map (·.schedule), world)

def setBackupRetention (faults : SaveFaults) (id : String) (value : JsValue) (world : PolicyWorld) :
    Except PolicyMutationError BackupRetentionPolicy × PolicyWorld :=
  match world.catalog.findById id with
  | none => (.error .targetNotFound, world)
  | some previous =>
    match createRetention value with
    | .error code => (.error (.invalid code), world)
    | .ok retention =>
      let (updated, world) := updateAndSave faults (·.updateRetention id retention)
        (·.updateRetention id previous.retention) world
      (updated.map (·.retention), world)

inductive PolicyMutation where
  | setBackupSchedule (id : String) (value : JsValue)
  | removeBackupSchedule (id : String)
  | setBackupRetention (id : String) (value : JsValue)

namespace PolicyMutation

def perform (faults : SaveFaults) (world : PolicyWorld) :
    PolicyMutation → Except PolicyMutationError Unit × PolicyWorld
  | .setBackupSchedule id value =>
    let (answer, world) := Backup.setBackupSchedule faults id value world
    (answer.map fun _ => (), world)
  | .removeBackupSchedule id =>
    let (answer, world) := Backup.removeBackupSchedule faults id world
    (answer.map fun _ => (), world)
  | .setBackupRetention id value =>
    let (answer, world) := Backup.setBackupRetention faults id value world
    (answer.map fun _ => (), world)

/-- The catalog that a change asks for; `none` when something is wrong with the change. -/
def updated? (catalog : Catalog) : PolicyMutation → Option Catalog
  | .setBackupSchedule id value =>
    (createBackupSchedule value).toOption.bind fun schedule =>
      (catalog.updateSchedule id schedule).map (·.2)
  | .removeBackupSchedule id => (catalog.updateSchedule id .manual).map (·.2)
  | .setBackupRetention id value =>
    (createRetention value).toOption.bind fun retention =>
      (catalog.updateRetention id retention).map (·.2)

end PolicyMutation

/-! ## What saving does -/

section Save

variable {faults : SaveFaults} {targets : List BackupTarget} {files : PolicyFiles}

/-- Saving succeeds when no call fails and no temporary file is left. -/
theorem save_eq_true : (save faults targets files).1 = true ↔
    files.temporary = none ∧ faults.any = false := by
  obtain ⟨makeDirectory, changeDirectoryMode, writeTemporary, changeTemporaryMode, rename⟩ := faults
  obtain ⟨file, temporary⟩ := files
  unfold save SaveFaults.any
  cases makeDirectory <;> cases changeDirectoryMode <;> cases temporary <;>
    rcases writeTemporary with _ | (_ | content) <;> cases changeTemporaryMode <;> cases rename <;>
    simp

/-- Saving leaves the policies on file, or the old file. -/
theorem save_file : (save faults targets files).2.file =
    if (save faults targets files).1 then some (.document (policyDocument targets))
    else files.file := by
  obtain ⟨makeDirectory, changeDirectoryMode, writeTemporary, changeTemporaryMode, rename⟩ := faults
  obtain ⟨file, temporary⟩ := files
  unfold save
  cases makeDirectory <;> cases changeDirectoryMode <;> cases temporary <;>
    rcases writeTemporary with _ | (_ | content) <;> cases changeTemporaryMode <;> cases rename <;>
    rfl

theorem save_temporary (h : files.temporary = none) :
    (save faults targets files).2.temporary = none ↔ faults.leaveTemporary = false := by
  obtain ⟨makeDirectory, changeDirectoryMode, writeTemporary, changeTemporaryMode, rename⟩ := faults
  obtain ⟨file, temporary⟩ := files
  obtain rfl : temporary = none := h
  unfold save SaveFaults.leaveTemporary
  cases makeDirectory <;> cases changeDirectoryMode <;>
    rcases writeTemporary with _ | (_ | content) <;> cases changeTemporaryMode <;> cases rename <;>
    simp

end Save

/-! ## What a change does -/

section Change

variable {catalog : Catalog} {id : String} {target next previous : BackupTarget}

theorem Catalog.ext_targets {a b : Catalog} (h : a.targets = b.targets) : a = b := by
  cases a; cases b; simp_all

theorem mem_of_findById (h : catalog.findById id = some target) :
    target ∈ catalog.targets ∧ target.id = id :=
  ⟨List.mem_of_find?_eq_some h, by simpa using List.find?_some h⟩

/-- The target of a name is the only one of that name. -/
theorem eq_of_id_eq {a b : BackupTarget} (ha : a ∈ catalog.targets) (hb : b ∈ catalog.targets)
    (h : a.id = b.id) : a = b := List.inj_on_of_nodup_map catalog.unique ha hb h

theorem findById_replace (hfind : catalog.findById id = some previous) (hid : next.id = id) :
    (catalog.replace next).findById id = some next := by
  obtain ⟨hmem, hprevious⟩ := mem_of_findById hfind
  have hnext : next ∈ (catalog.replace next).targets :=
    List.mem_map.mpr ⟨previous, hmem, if_pos (hprevious.trans hid.symm)⟩
  rw [← hid]
  exact find?_key (fun a ha b hb => eq_of_id_eq ha hb) hnext

/-- A target that is put back leaves no trace of the one in its place. -/
theorem replace_replace (hfind : catalog.findById id = some previous) (hid : next.id = id) :
    (catalog.replace next).replace previous = catalog := by
  obtain ⟨hmem, hprevious⟩ := mem_of_findById hfind
  refine Catalog.ext_targets ?_
  simp only [Catalog.replace, List.map_map]
  refine (List.map_congr_left fun item hitem => ?_).trans (List.map_id _)
  change _ = item
  simp only [Function.comp_apply]
  by_cases hsame : item.id = next.id
  · rw [if_pos hsame, if_pos (hid.trans hprevious.symm)]
    exact eq_of_id_eq hmem hitem (hprevious.trans (hid.symm.trans hsame.symm))
  · rw [if_neg hsame, if_neg]
    rw [hprevious, ← hid]
    exact hsame

variable {faults : SaveFaults} {world : PolicyWorld} {update restore : Catalog → Option
  (BackupTarget × Catalog)}

theorem update_eq (hfind : catalog.findById id = some previous)
    (change : BackupTarget → BackupTarget) :
    catalog.update id change = some (change previous, catalog.replace (change previous)) := by
  rw [Catalog.update, hfind]
  rfl

theorem update_eq_none (hfind : catalog.findById id = none)
    (change : BackupTarget → BackupTarget) : catalog.update id change = none := by
  rw [Catalog.update, hfind]
  rfl

variable {faults : SaveFaults} {world : PolicyWorld}

/-- What a change leaves when the catalog that it asks for is `catalog`. -/
def PolicyWorld.saved (world : PolicyWorld) (faults : SaveFaults) (catalog : Catalog) :
    PolicyWorld where
  catalog := if (save faults catalog.targets world.files).1 then catalog else world.catalog
  files := (save faults catalog.targets world.files).2

/-- A change of a target that is in the catalog is saved, or nothing is changed. -/
theorem updateAndSave_eq (change : BackupTarget → BackupTarget) {restore : BackupTarget → BackupTarget}
    (hfind : world.catalog.findById id = some previous) (hid : (change previous).id = previous.id)
    (hrestore : restore (change previous) = previous) :
    (updateAndSave faults (·.update id change) (·.update id restore) world).1.isOk =
        (save faults (world.catalog.replace (change previous)).targets world.files).1 ∧
      (updateAndSave faults (·.update id change) (·.update id restore) world).2 =
        world.saved faults (world.catalog.replace (change previous)) := by
  have hid := hid.trans (mem_of_findById hfind).2
  rw [updateAndSave, update_eq hfind, PolicyWorld.saved]
  dsimp only
  rcases save faults (world.catalog.replace (change previous)).targets world.files with
    ⟨_ | _, files⟩
  · dsimp only
    rw [update_eq (findById_replace hfind hid), hrestore, replace_replace hfind hid]
    exact ⟨rfl, rfl⟩
  · exact ⟨rfl, rfl⟩

theorem isOk_map {ε α β : Type} (f : α → β) (x : Except ε α) : (x.map f).isOk = x.isOk := by
  cases x <;> rfl

/-- A change does what it asks for, or nothing at all. -/
def PerformsAs (answer : Bool) (world' world : PolicyWorld) (faults : SaveFaults) :
    Option Catalog → Prop
  | none => answer = false ∧ world' = world
  | some catalog =>
    answer = (save faults catalog.targets world.files).1 ∧ world' = world.saved faults catalog

/-- A change that nothing is wrong with saves the catalog it asks for; any other
change does nothing. -/
theorem perform_eq (faults : SaveFaults) (world : PolicyWorld) (mutation : PolicyMutation) :
    PerformsAs (mutation.perform faults world).1.isOk (mutation.perform faults world).2 world faults
      (mutation.updated? world.catalog) := by
  cases mutation with
  | setBackupSchedule id value =>
      simp only [PolicyMutation.perform, setBackupSchedule, PolicyMutation.updated?,
        Catalog.updateSchedule]
      cases hfind : world.catalog.findById id with
      | none =>
          simp only [update_eq_none hfind, Option.map_none, Option.bind_fun_none]
          exact ⟨rfl, rfl⟩
      | some previous =>
          cases createBackupSchedule value with
          | error code => exact ⟨rfl, rfl⟩
          | ok schedule =>
              simp only [Except.toOption, Option.bind_some, update_eq hfind, Option.map_some,
                isOk_map]
              exact updateAndSave_eq (fun target => { target with schedule }) hfind rfl rfl
  | removeBackupSchedule id =>
      simp only [PolicyMutation.perform, removeBackupSchedule, PolicyMutation.updated?,
        Catalog.updateSchedule]
      cases hfind : world.catalog.findById id with
      | none =>
          simp only [update_eq_none hfind, Option.map_none]
          exact ⟨rfl, rfl⟩
      | some previous =>
          simp only [update_eq hfind, Option.map_some, isOk_map]
          exact updateAndSave_eq (fun target => { target with schedule := .manual }) hfind rfl rfl
  | setBackupRetention id value =>
      simp only [PolicyMutation.perform, setBackupRetention, PolicyMutation.updated?,
        Catalog.updateRetention]
      cases hfind : world.catalog.findById id with
      | none =>
          simp only [update_eq_none hfind, Option.map_none, Option.bind_fun_none]
          exact ⟨rfl, rfl⟩
      | some previous =>
          cases createRetention value with
          | error code => exact ⟨rfl, rfl⟩
          | ok retention =>
              simp only [Except.toOption, Option.bind_some, update_eq hfind, Option.map_some,
                isOk_map]
              exact updateAndSave_eq (fun target => { target with retention }) hfind rfl rfl

end Change

/-! ## Changes one after another -/

section Runs

/-- A property of every change of a sequence, at the state in which it is made. -/
def Along (property : PolicyMutation → SaveFaults → PolicyWorld → Prop) :
    PolicyWorld → List (PolicyMutation × SaveFaults) → Prop
  | _, [] => True
  | world, (mutation, faults) :: steps =>
    property mutation faults world ∧ Along property (mutation.perform faults world).2 steps

variable (bytes : JsValue → Nat)

/-- A change that fails changes nothing, and any change that nothing is wrong with can be
made after it; a change that is made can be loaded. -/
structure Recovers (mutation : PolicyMutation) (faults : SaveFaults) (world : PolicyWorld) :
    Prop where
  unchanged : (mutation.perform faults world).1.isOk = false →
    (mutation.perform faults world).2.catalog = world.catalog ∧
      (mutation.perform faults world).2.files.file = world.files.file
  later : (mutation.perform faults world).1.isOk = false → ∀ next : PolicyMutation,
    (next.updated? (mutation.perform faults world).2.catalog).isSome →
    (next.perform .none (mutation.perform faults world).2).1.isOk = true
  loads : (mutation.perform faults world).1.isOk = true → ∀ configured,
    List.Forall₂ SameTarget configured (mutation.perform faults world).2.catalog.targets →
    load bytes configured (mutation.perform faults world).2.files.file =
      .ok (mutation.perform faults world).2.catalog.targets

/-- A change that nothing is wrong with does not leave the temporary file, and when no
call fails, the text that it saves is not too long to be loaded. -/
def GoesRight (mutation : PolicyMutation) (faults : SaveFaults) (world : PolicyWorld) : Prop :=
  ∀ catalog, mutation.updated? world.catalog = some catalog → faults.leaveTemporary = false ∧
    (faults.any = false → bytes (policyDocument catalog.targets) ≤ maximumBytes)

variable {bytes} {mutation : PolicyMutation} {faults : SaveFaults} {world : PolicyWorld}

theorem leaveTemporary_of_none (h : faults.any = false) : faults.leaveTemporary = false := by
  obtain ⟨makeDirectory, changeDirectoryMode, writeTemporary, changeTemporaryMode, rename⟩ := faults
  cases writeTemporary <;> simp_all [SaveFaults.any, SaveFaults.leaveTemporary]

/-- Where no temporary file is left, a change that nothing is wrong with can be made. -/
theorem isOk_perform_none (hnone : world.files.temporary = none)
    (hupdated : (mutation.updated? world.catalog).isSome) :
    (mutation.perform .none world).1.isOk = true := by
  have hperform := perform_eq .none world mutation
  obtain ⟨catalog, hcatalog⟩ := Option.isSome_iff_exists.mp hupdated
  rw [hcatalog] at hperform
  rw [hperform.1, save_eq_true]
  exact ⟨hnone, rfl⟩

/-- A change that goes right leaves no temporary file. -/
theorem temporary_of_goesRight (hnone : world.files.temporary = none)
    (h : GoesRight bytes mutation faults world) :
    (mutation.perform faults world).2.files.temporary = none := by
  have hperform := perform_eq faults world mutation
  cases hupdated : mutation.updated? world.catalog with
  | none =>
      rw [hupdated] at hperform
      rw [hperform.2, hnone]
  | some catalog =>
      rw [hupdated] at hperform
      rw [hperform.2]
      exact (save_temporary hnone).mpr (h catalog hupdated).1

/-- **One change**: where no temporary file is left, it recovers exactly when it goes right. -/
theorem recovers_iff_goesRight (hnone : world.files.temporary = none) :
    Recovers bytes mutation faults world ↔ GoesRight bytes mutation faults world := by
  have hperform := perform_eq faults world mutation
  constructor
  · intro h catalog hupdated
    rw [hupdated] at hperform
    obtain ⟨hanswer, hworld⟩ := hperform
    obtain ⟨hunchanged, hlater, hloads⟩ := h
    have hanswer' : (mutation.perform faults world).1.isOk = true ↔ faults.any = false := by
      rw [hanswer, save_eq_true, and_iff_right hnone]
    refine ⟨?_, fun hany => ?_⟩
    · -- the same change, made again, finds no temporary file
      cases hany : faults.any with
      | false => exact leaveTemporary_of_none hany
      | true =>
          have hfailed : (mutation.perform faults world).1.isOk = false := by
            rw [← Bool.not_eq_true, hanswer', hany]
            simp
          have hagain := hlater hfailed mutation (by
            rw [(hunchanged hfailed).1, hupdated]
            rfl)
          have hperform' := perform_eq .none (mutation.perform faults world).2 mutation
          rw [(hunchanged hfailed).1, hupdated] at hperform'
          rw [hperform'.1, save_eq_true, hworld] at hagain
          exact (save_temporary hnone).mp hagain.1
    · have hsaved := hanswer'.mpr hany
      have hload := hloads hsaved catalog.targets
      rw [hworld, PolicyWorld.saved, save_file, ← hanswer, if_pos hsaved, if_pos hsaved] at hload
      have hload := hload (List.forall₂_same.mpr fun target _ => SameTarget.refl target)
      rw [load_policyDocument catalog.unique
        (List.forall₂_same.mpr fun target _ => SameTarget.refl target)] at hload
      by_contra hlong
      rw [if_pos (not_le.mp hlong)] at hload
      cases hload
  · intro h
    have htemporary := temporary_of_goesRight hnone h
    cases hupdated : mutation.updated? world.catalog with
    | none =>
        rw [hupdated] at hperform
        obtain ⟨hanswer, hworld⟩ := hperform
        exact ⟨fun _ => by rw [hworld]; exact ⟨rfl, rfl⟩, fun _ _ => isOk_perform_none htemporary,
          fun hsaved => absurd (hanswer.symm.trans hsaved) Bool.false_ne_true⟩
    | some catalog =>
        rw [hupdated] at hperform
        obtain ⟨hanswer, hworld⟩ := hperform
        refine ⟨fun hfailed => ?_, fun _ _ => isOk_perform_none htemporary, fun hsaved => ?_⟩
        · rw [hworld, PolicyWorld.saved, save_file, ← hanswer, hfailed]
          exact ⟨rfl, rfl⟩
        · have hany := (save_eq_true.mp (hanswer.symm.trans hsaved)).2
          have hshort := (h catalog hupdated).2 hany
          rw [hworld, PolicyWorld.saved, save_file, ← hanswer, if_pos hsaved, if_pos hsaved]
          intro configured hsame
          rw [load_policyDocument catalog.unique hsame, if_neg (not_lt.mpr hshort)]

theorem along_recovers_of_none {steps : List (PolicyMutation × SaveFaults)}
    (hnone : world.files.temporary = none) :
    Along (Recovers bytes) world steps ↔ Along (GoesRight bytes) world steps := by
  induction steps generalizing world with
  | nil => exact Iff.rfl
  | cons step steps ih =>
      obtain ⟨mutation, faults⟩ := step
      rw [Along, Along, recovers_iff_goesRight hnone]
      exact and_congr_right fun hright => ih (temporary_of_goesRight hnone hright)

end Runs

/-- **Changes recover.**  Over any changes with any failures, from any catalog and policy
file, every change recovers exactly when every change goes right. -/
theorem along_recovers_iff (bytes : JsValue → Nat) (catalog : Catalog)
    (file : Option (Content JsValue)) (steps : List (PolicyMutation × SaveFaults)) :
    Along (Recovers bytes) ⟨catalog, ⟨file, none⟩⟩ steps ↔
      Along (GoesRight bytes) ⟨catalog, ⟨file, none⟩⟩ steps :=
  along_recovers_of_none rfl

/-- After a rename that fails nothing can be saved any more. -/
theorem not_along_recovers :
    ∃ (catalog : Catalog) (steps : List (PolicyMutation × SaveFaults)),
      ¬ Along (Recovers fun _ => 0) ⟨catalog, ⟨none, none⟩⟩ steps := by
  refine ⟨⟨[docs], List.nodup_singleton _⟩,
    [(.removeBackupSchedule "docs", { SaveFaults.none with rename := true })], fun h => ?_⟩
  have hagain := h.1.later rfl (.removeBackupSchedule "docs") rfl
  cases hagain

end AtlasManager.Backup
