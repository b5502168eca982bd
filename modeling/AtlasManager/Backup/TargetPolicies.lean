import AtlasManager.Backup.BackupTarget
import AtlasManager.Scheduling.WeeklySchedule
import AtlasManager.Lib.DocStore

/-!
# AtlasManager.Backup.TargetPolicies

The schedules and retentions of the targets, and the file they are kept in.

* `createBackupSchedule`, `createRetention` -- policies from values of unknown type;
* `FileBackupTargetPolicyStore` -- the store: `save` writes a temporary file and
  renames it, `load` puts the policies on file in place of the configured ones;
* `load_policyDocument` -- what has been saved is loaded, if it is not too large.
-/

namespace AtlasManager.Backup

open AtlasManager.Lib AtlasManager.Scheduling

/-! ## Policies -/

inductive BackupTargetValidationErrorCode where
  | invalidSchedule
  | invalidRetention
  deriving DecidableEq, Repr

inductive BackupScheduleMode where
  | manual
  | scheduled
  | disabled
  deriving DecidableEq, Repr

def BackupScheduleMode.text : BackupScheduleMode → String
  | manual => "manual"
  | scheduled => "scheduled"
  | disabled => "disabled"

/-- The only time zone of a schedule. -/
def scheduleTimezone : String := "America/Sao_Paulo"

def createBackupSchedule (input : JsValue) :
    Except BackupTargetValidationErrorCode BackupSchedule := do
  let some fields := input.asRecord | throw .invalidSchedule
  let some mode := oneOf [.manual, .scheduled, .disabled] BackupScheduleMode.text
    (field fields "mode") | throw .invalidSchedule
  match mode with
  | .manual => if fields.length = 1 then return .manual else throw .invalidSchedule
  | .disabled => if fields.length = 1 then return .disabled else throw .invalidSchedule
  | .scheduled =>
    match field fields "timezone", field fields "windows" with
    | .str timezone, .arr windows =>
      if fields.length ≠ 3 ∨ timezone ≠ scheduleTimezone then throw .invalidSchedule
      else
        match createWeeklyAvailabilitySchedule windows with
        | some schedule => return .scheduled schedule
        | none => throw .invalidSchedule
    | _, _ => throw .invalidSchedule

/-- What is saved of a schedule. -/
def BackupSchedule.toJs : BackupSchedule → JsValue
  | .scheduled schedule =>
    .obj [("mode", .str "scheduled"), ("timezone", .str scheduleTimezone),
      ("windows", .arr (schedule.windows.map WeeklyAvailabilityWindow.toJs))]
  | .manual => .obj [("mode", .str "manual")]
  | .disabled => .obj [("mode", .str "disabled")]

@[simp] theorem createBackupSchedule_toJs (schedule : BackupSchedule) :
    createBackupSchedule schedule.toJs = .ok schedule := by
  cases schedule with
  | manual => rfl
  | disabled => rfl
  | scheduled schedule =>
      change (match createWeeklyAvailabilitySchedule
          (schedule.windows.map WeeklyAvailabilityWindow.toJs) with
        | some schedule => Except.ok (BackupSchedule.scheduled schedule)
        | none => Except.error BackupTargetValidationErrorCode.invalidSchedule) = _
      rw [createWeeklyAvailabilitySchedule_toJs]

theorem age_none : ∀ days ∈ (none : Option Nat), 1 ≤ days ∧ days ≤ 3650 := by simp

theorem age_toNat {age : Int} (days : 1 ≤ age ∧ age ≤ 3650) :
    ∀ days ∈ some age.toNat, 1 ≤ days ∧ days ≤ 3650 := by
  rintro _ ⟨⟩
  omega

theorem count_toNat {fields : List (String × JsValue)} {keep : Int}
    (count : (1 ≤ fields.length ∧ fields.length ≤ 2) ∧ 1 ≤ keep ∧ keep ≤ 100) :
    1 ≤ keep.toNat ∧ keep.toNat ≤ 100 := by
  omega

def createRetention (input : JsValue) :
    Except BackupTargetValidationErrorCode BackupRetentionPolicy := do
  let some fields := input.asRecord | throw .invalidRetention
  let some keep := (field fields "keepLastSuccessful").integer? | throw .invalidRetention
  if count : (1 ≤ fields.length ∧ fields.length ≤ 2) ∧ 1 ≤ keep ∧ keep ≤ 100 then
    match field fields "maxSuccessfulAgeDays" with
    | .undefined =>
      if fields.length = 1 then return ⟨keep.toNat, none, count_toNat count, age_none⟩
      else throw .invalidRetention
    | value =>
      let some age := value.integer? | throw .invalidRetention
      if days : 1 ≤ age ∧ age ≤ 3650 then
        return ⟨keep.toNat, some age.toNat, count_toNat count, age_toNat days⟩
      else throw .invalidRetention
  else throw .invalidRetention

/-- What is saved of a retention. -/
def BackupRetentionPolicy.toJs (retention : BackupRetentionPolicy) : JsValue :=
  .obj (("keepLastSuccessful", .num retention.keepLastSuccessful) ::
    match retention.maxSuccessfulAgeDays with
    | none => []
    | some days => [("maxSuccessfulAgeDays", .num days)])

theorem integer?_nat (n : Nat) : (JsValue.num n).integer? = some (n : Int) := by
  simp [JsValue.integer?]

@[simp] theorem createRetention_toJs (retention : BackupRetentionPolicy) :
    createRetention retention.toJs = .ok retention := by
  obtain ⟨keep, age, hcount, hage⟩ := retention
  cases age with
  | none =>
      have hkeep : field [("keepLastSuccessful", JsValue.num keep)] "keepLastSuccessful" =
          .num keep := rfl
      have hnone : field [("keepLastSuccessful", JsValue.num keep)] "maxSuccessfulAgeDays" =
          .undefined := rfl
      simp only [createRetention, BackupRetentionPolicy.toJs, JsValue.asRecord, hkeep, hnone,
        integer?_nat]
      rw [dif_pos ⟨by simp, by omega⟩]
      rfl
  | some days =>
      have hkeep : field [("keepLastSuccessful", JsValue.num keep),
          ("maxSuccessfulAgeDays", .num days)] "keepLastSuccessful" = .num keep := rfl
      have hdays : field [("keepLastSuccessful", JsValue.num keep),
          ("maxSuccessfulAgeDays", .num days)] "maxSuccessfulAgeDays" = .num days := rfl
      have hrange := hage days rfl
      simp only [createRetention, BackupRetentionPolicy.toJs, JsValue.asRecord, hkeep, hdays,
        integer?_nat]
      rw [dif_pos ⟨by simp, by omega⟩, dif_pos (by omega)]
      rfl

/-! ## The store -/

/-- A target as it is saved: its policies under its name. -/
def BackupTarget.policyEntry (target : BackupTarget) : JsValue :=
  .obj [("id", .str target.id), ("schedule", target.schedule.toJs),
    ("retention", target.retention.toJs)]

/-- The document of the policies. -/
def policyDocument (targets : List BackupTarget) : JsValue :=
  .obj [("schemaVersion", .num 1), ("targets", .arr (targets.map (·.policyEntry)))]

inductive PolicyStateError where
  | tooLarge
  | invalid
  | invalidTarget (code : BackupTargetValidationErrorCode)
  deriving DecidableEq, Repr

namespace FileBackupTargetPolicyStore

/-- A file that is longer is not loaded. -/
def maximumBytes : Nat := 64 * 1024

/-- The loop body of `load`: the name of an entry, and the target with its policies.
`seen` are the names that have been met, and `byId` holds the target of every name. -/
def loadEntry (seen : List String) (byId : String → Option BackupTarget) (entry : JsValue) :
    Except PolicyStateError (String × BackupTarget) :=
  match entry.asRecord with
  | none => .error .invalid
  | some fields =>
    match field fields "id" with
    | .str id =>
      if fields.length ≠ 3 ∨ hasOwn fields "schedule" = false ∨
          hasOwn fields "retention" = false ∨ id ∈ seen then .error .invalid
      else
        match byId id with
        | none => .error .invalid
        | some target =>
          match createBackupSchedule (field fields "schedule") with
          | .error code => .error (.invalidTarget code)
          | .ok schedule =>
            match createRetention (field fields "retention") with
            | .error code => .error (.invalidTarget code)
            | .ok retention => .ok (id, { target with schedule, retention })
    | _ => .error .invalid

/-- The loop of `load` over the entries. -/
def loadEntries : List JsValue → List String → (String → Option BackupTarget) →
    Except PolicyStateError (String → Option BackupTarget)
  | [], _, byId => .ok byId
  | entry :: entries, seen, byId =>
    match loadEntry seen byId entry with
    | .error error => .error error
    | .ok (id, target) =>
      loadEntries entries (addNew seen id) (Function.update byId id (some target))

/-- `new Map` of the targets by their names: the last of a name counts. -/
def targetsById (targets : List BackupTarget) (id : String) : Option BackupTarget :=
  targets.reverse.find? fun target => target.id = id

/-- `load` of a private file; `bytes` is the length of the text of a document. -/
def load (bytes : JsValue → Nat) (targets : List BackupTarget) :
    Option (Content JsValue) → Except PolicyStateError (List BackupTarget)
  | none => .ok targets
  | some .other => .error .invalid
  | some (.document document) =>
    if bytes document > maximumBytes then .error .tooLarge
    else
      match document.asRecord with
      | none => .error .invalid
      | some fields =>
        match field fields "schemaVersion", field fields "targets" with
        | .num version, .arr entries =>
          if fields.length ≠ 2 ∨ version ≠ 1 ∨ entries.length ≠ targets.length then .error .invalid
          else
            match loadEntries entries [] (targetsById targets) with
            | .error error => .error error
            | .ok byId => .ok (targets.map fun target => (byId target.id).getD target)
        | _, _ => .error .invalid

end FileBackupTargetPolicyStore

/-! ### What is loaded -/

/-- Two targets that differ in their policies only. -/
def SameTarget (configured saved : BackupTarget) : Prop :=
  { configured with schedule := saved.schedule, retention := saved.retention } = saved

theorem SameTarget.id_eq {configured saved : BackupTarget} (h : SameTarget configured saved) :
    configured.id = saved.id := by
  rw [← h]

theorem SameTarget.refl (target : BackupTarget) : SameTarget target target := rfl

open FileBackupTargetPolicyStore

theorem loadEntry_policyEntry {seen : List String} {byId : String → Option BackupTarget}
    {configured target : BackupTarget} (hnew : target.id ∉ seen)
    (hconfigured : byId target.id = some configured) (hsame : SameTarget configured target) :
    loadEntry seen byId target.policyEntry = .ok (target.id, target) := by
  have hschedule := createBackupSchedule_toJs target.schedule
  have hretention := createRetention_toJs target.retention
  rw [loadEntry]
  change (if _ ∨ _ ∨ _ ∨ target.id ∈ seen then _ else
    match byId target.id with
    | none => _
    | some configured =>
      match createBackupSchedule target.schedule.toJs with
      | .error code => _
      | .ok schedule =>
        match createRetention target.retention.toJs with
        | .error code => _
        | .ok retention => _) = _
  rw [if_neg (by simp [hnew, hasOwn]), hconfigured, hschedule, hretention]
  exact congrArg (fun target' => Except.ok (target.id, target')) hsame

/-- The entries of targets with different names give every one its policies. -/
theorem loadEntries_policyEntry {saved : List BackupTarget} {seen : List String}
    {byId : String → Option BackupTarget} (hnodup : (saved.map (·.id)).Nodup)
    (hnew : ∀ target ∈ saved, target.id ∉ seen)
    (hknown : ∀ target ∈ saved, ∃ configured, byId target.id = some configured ∧
      SameTarget configured target) :
    ∃ byId', loadEntries (saved.map (·.policyEntry)) seen byId = .ok byId' ∧
      (∀ target ∈ saved, byId' target.id = some target) ∧
      ∀ id, id ∉ saved.map (·.id) → byId' id = byId id := by
  induction saved generalizing seen byId with
  | nil => exact ⟨byId, rfl, List.forall_mem_nil _, fun _ _ => rfl⟩
  | cons target saved ih =>
      obtain ⟨hother, hnodup⟩ := List.nodup_cons.mp hnodup
      obtain ⟨hnew, hnewRest⟩ := List.forall_mem_cons.mp hnew
      obtain ⟨⟨configured, hconfigured, hsame⟩, hknown⟩ := List.forall_mem_cons.mp hknown
      have hne : ∀ other ∈ saved, other.id ≠ target.id := by
        intro other hmem heq
        exact hother (List.mem_map.mpr ⟨other, hmem, heq⟩)
      obtain ⟨byId', hload, hloaded, hrest⟩ := @ih (addNew seen target.id)
        (Function.update byId target.id (some target)) hnodup
        (fun other hmem hseen => (mem_addNew.mp hseen).elim (hnewRest other hmem) (hne other hmem))
        (fun other hmem => by
          rw [Function.update_of_ne (hne other hmem)]
          exact hknown other hmem)
      refine ⟨byId', ?_, List.forall_mem_cons.mpr ⟨?_, hloaded⟩, fun id hid => ?_⟩
      · rw [List.map_cons, loadEntries, loadEntry_policyEntry hnew hconfigured hsame]
        exact hload
      · rw [hrest _ hother, Function.update_self]
      · rw [List.map_cons, List.mem_cons, not_or] at hid
        rw [hrest id hid.2, Function.update_of_ne hid.1]

/-- In a list of targets with different names every name has its target. -/
theorem targetsById_of_mem {targets : List BackupTarget} (hnodup : (targets.map (·.id)).Nodup)
    {target : BackupTarget} (hmem : target ∈ targets) :
    targetsById targets target.id = some target := by
  refine find?_key (fun a ha b hb => ?_) (List.mem_reverse.mpr hmem)
  exact List.inj_on_of_nodup_map hnodup (List.mem_reverse.mp ha) (List.mem_reverse.mp hb)

/-- **Saved and loaded.**  The document of targets with different names, loaded over
targets that differ in their policies only, gives the targets, if it is not too large. -/
theorem load_policyDocument {bytes : JsValue → Nat} {configured saved : List BackupTarget}
    (hnodup : (saved.map (·.id)).Nodup) (hsame : List.Forall₂ SameTarget configured saved) :
    load bytes configured (some (.document (policyDocument saved))) =
      if bytes (policyDocument saved) > maximumBytes then .error .tooLarge else .ok saved := by
  have hids : configured.map (·.id) = saved.map (·.id) := by
    induction hsame with
    | nil => rfl
    | cons hone _ ih =>
        rw [List.map_cons, List.map_cons, hone.id_eq, ih (List.nodup_cons.mp hnodup).2]
  have hknown : ∀ target ∈ saved, ∃ configured', targetsById configured target.id =
      some configured' ∧ SameTarget configured' target := by
    intro target hmem
    obtain ⟨configured', hmem', hone⟩ := exists_of_mem_forall₂ hsame hmem
    exact ⟨configured', hone.id_eq ▸ targetsById_of_mem (hids ▸ hnodup) hmem', hone⟩
  obtain ⟨byId, hload, hloaded, -⟩ := @loadEntries_policyEntry saved [] _ hnodup
    (fun _ _ => List.not_mem_nil) hknown
  have hresult : (configured.map fun target => (byId target.id).getD target) = saved := by
    clear hids hknown hload hnodup
    induction hsame with
    | nil => rfl
    | cons hone _ ih =>
        obtain ⟨hhead, hloaded⟩ := List.forall_mem_cons.mp hloaded
        rw [List.map_cons, ih hloaded, hone.id_eq, hhead]
        rfl
  have hlength : (saved.map (·.policyEntry)).length = configured.length := by
    rw [List.length_map, hsame.length_eq]
  rw [load]
  split
  · rfl
  change (if _ ∨ _ ∨ (saved.map (·.policyEntry)).length ≠ configured.length then _ else
    match loadEntries (saved.map (·.policyEntry)) [] (targetsById configured) with
    | .error error => _
    | .ok byId => _) = _
  rw [if_neg (by simp [hlength]), hload]
  exact congrArg Except.ok hresult

end AtlasManager.Backup
