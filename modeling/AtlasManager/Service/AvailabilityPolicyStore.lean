import AtlasManager.Scheduling.ServicePolicy
import AtlasManager.Lib.JsonValues
import AtlasManager.Lib.Utf

/-!
# AtlasManager.Service.AvailabilityPolicyStore

The file of the availability policies of the services.

* `read_contentsOf` -- a file that was written is read as the policies in it;
* `policies_readBack` -- policies that are saved, in whichever order, are read back.
-/

namespace AtlasManager.Service.FileServiceAvailabilityPolicyStore

open AtlasManager.Lib AtlasManager.Lib.Json Scheduling

structure StoredPolicy where
  serviceId : String
  policy : ServiceAvailabilityPolicy
  deriving DecidableEq

inductive ErrorCode where
  | invalidPolicyFile
  | policyReadFailed
  | policyWriteFailed
  deriving DecidableEq, Repr

/-! ## Entries -/

def readEntry (entry : JsValue) : Option StoredPolicy := do
  let fields ← entry.asRecord
  guard (fields.length = 2 ∧ hasOwn fields "policy")
  match field fields "serviceId" with
  | .str serviceId =>
    let policy ← createServiceAvailabilityPolicy (field fields "policy")
    return ⟨serviceId, policy⟩
  | _ => none

/-- The entries of a document: none is in front of one that comes first. -/
def readDocument (parsed : JsValue) : Option (List StoredPolicy) := do
  let fields ← parsed.asRecord
  guard (fields.length = 2 ∧ field fields "version" = .num 1)
  match field fields "policies" with
  | .arr entries =>
    let policies ← entries.mapM readEntry
    guard (policies.IsChain fun a b => compareCodeUnits a.serviceId b.serviceId = .lt)
    return policies
  | _ => none

def StoredPolicy.toJs (entry : StoredPolicy) : JsValue :=
  .obj [("serviceId", .str entry.serviceId), ("policy", serializePolicy entry.policy)]

def documentOf (policies : List StoredPolicy) : JsValue :=
  .obj [("version", .num 1), ("policies", .arr (policies.map StoredPolicy.toJs))]

/-! ## The file -/

/-- `#read` of the bytes of the file, or of no file. -/
def read : Option ByteArray → Except ErrorCode (List StoredPolicy)
  | none => .ok []
  | some contents =>
    match (decodeUtf8 contents).bind fun text => (parseJs text.toList).bind readDocument with
    | some policies => .ok policies
    | none => .error .invalidPolicyFile

/-- What `#write` puts into the file. -/
def contentsOf (policies : List StoredPolicy) : ByteArray :=
  (String.ofList (stringify (ofJsValue (documentOf policies)) ++ ['\n'])).toByteArray

def sortPolicies (policies : List StoredPolicy) : List StoredPolicy :=
  policies.mergeSort fun left right => compareCodeUnits left.serviceId right.serviceId ≠ .gt

def save (serviceId : String) (policy : ServiceAvailabilityPolicy) (file : Option ByteArray) :
    Except ErrorCode (Option ByteArray) := do
  let policies ← read file
  return some (contentsOf (sortPolicies
    (policies.filter (fun entry => entry.serviceId ≠ serviceId) ++ [⟨serviceId, policy⟩])))

def removeByServiceId (serviceId : String) (file : Option ByteArray) :
    Except ErrorCode (Option ByteArray) := do
  let policies ← read file
  return some (contentsOf (policies.filter fun entry => entry.serviceId ≠ serviceId))

def findByServiceId (serviceId : String) (file : Option ByteArray) :
    Except ErrorCode (Option ServiceAvailabilityPolicy) := do
  let policies ← read file
  return (policies.find? fun entry => entry.serviceId = serviceId).map (·.policy)

/-- Policies that are saved one after the other. -/
def saveAll (entries : List StoredPolicy) (file : Option ByteArray) :
    Except ErrorCode (Option ByteArray) :=
  entries.foldlM (fun file entry => save entry.serviceId entry.policy file) file

/-! ## Order -/

/-- The entries of a file stand in the order of their ids, and no id stands twice. -/
def Canonical (policies : List StoredPolicy) : Prop :=
  policies.Pairwise fun a b => codeUnits a.serviceId < codeUnits b.serviceId

theorem isChain_iff_canonical {policies : List StoredPolicy} :
    (policies.IsChain fun a b => compareCodeUnits a.serviceId b.serviceId = .lt) ↔ Canonical policies := by
  have : Trans (fun a b : StoredPolicy => codeUnits a.serviceId < codeUnits b.serviceId)
      (fun a b : StoredPolicy => codeUnits a.serviceId < codeUnits b.serviceId)
      (fun a b : StoredPolicy => codeUnits a.serviceId < codeUnits b.serviceId) :=
    ⟨fun h h' => h.trans h'⟩
  simp only [compareCodeUnits_eq_lt]
  exact List.isChain_iff_pairwise

/-- Entries with different ids are sorted into the order of the file. -/
theorem canonical_sortPolicies {policies : List StoredPolicy}
    (hids : (policies.map (·.serviceId)).Nodup) : Canonical (sortPolicies policies) := by
  have hsorted : (sortPolicies policies).Pairwise fun a b =>
      decide (compareCodeUnits a.serviceId b.serviceId ≠ .gt) = true := by
    refine List.pairwise_mergeSort (fun a b c hab hbc => ?_) (fun a b => ?_) policies
    · simp only [decide_eq_true_eq, compareCodeUnits_ne_gt] at *
      exact hab.trans hbc
    · simp only [Bool.or_eq_true, decide_eq_true_eq, compareCodeUnits_ne_gt]
      exact le_total _ _
  have hdiffer : (sortPolicies policies).Pairwise fun a b => a.serviceId ≠ b.serviceId := by
    have hperm := ((List.mergeSort_perm policies fun left right =>
      decide (compareCodeUnits left.serviceId right.serviceId ≠ .gt)).map (·.serviceId)).nodup_iff.mpr hids
    exact List.pairwise_map.mp hperm
  refine (hsorted.and hdiffer).imp fun {a b} hboth => ?_
  refine lt_of_le_of_ne (compareCodeUnits_ne_gt.mp (of_decide_eq_true hboth.1)) fun heq => hboth.2 ?_
  exact codeUnits_injective heq

theorem nodup_of_canonical {policies : List StoredPolicy} (h : Canonical policies) :
    (policies.map (·.serviceId)).Nodup := by
  rw [List.Nodup, List.pairwise_map]
  exact h.imp fun hlt heq => (heq ▸ hlt).false

/-! ## Reading what was written -/

theorem isPlain_windows (windows : List WeeklyAvailabilityWindow) :
    ArePlain (windows.map WeeklyAvailabilityWindow.toJs) := by
  induction windows with
  | nil => trivial
  | cons window windows ih => exact ⟨⟨by simp, trivial, trivial, trivial, trivial⟩, ih⟩

/-- A policy is saved as a value that a text can hold. -/
theorem isPlain_serializePolicy (policy : ServiceAvailabilityPolicy) :
    IsPlain (serializePolicy policy) := by
  cases policy with
  | scheduled schedule =>
      exact ⟨by simp, trivial, trivial, isPlain_windows schedule.windows, trivial⟩
  | _ => exact ⟨by simp, trivial, trivial⟩

theorem arePlain_entries (policies : List StoredPolicy) :
    ArePlain (policies.map StoredPolicy.toJs) := by
  induction policies with
  | nil => trivial
  | cons entry policies ih =>
      exact ⟨⟨by simp, trivial, isPlain_serializePolicy entry.policy, trivial⟩, ih⟩

theorem isPlain_documentOf (policies : List StoredPolicy) : IsPlain (documentOf policies) :=
  ⟨by simp, ⟨by norm_num, rfl⟩, arePlain_entries policies, trivial⟩

@[simp] theorem readEntry_toJs (entry : StoredPolicy) : readEntry entry.toJs = some entry := by
  change (do
    let policy ← createServiceAvailabilityPolicy (serializePolicy entry.policy)
    return (⟨entry.serviceId, policy⟩ : StoredPolicy)) = some entry
  rw [createServiceAvailabilityPolicy_serializePolicy]
  rfl

theorem mapM_readEntry (policies : List StoredPolicy) :
    (policies.map StoredPolicy.toJs).mapM readEntry = some policies := by
  induction policies with
  | nil => rfl
  | cons entry policies ih =>
      rw [List.map_cons, List.mapM_cons, readEntry_toJs, ih]
      rfl

theorem readDocument_documentOf {policies : List StoredPolicy} (h : Canonical policies) :
    readDocument (documentOf policies) = some policies := by
  change (do
    let policies ← (policies.map StoredPolicy.toJs).mapM readEntry
    guard (policies.IsChain fun a b => compareCodeUnits a.serviceId b.serviceId = .lt)
    return policies) = some policies
  rw [mapM_readEntry]
  simp [isChain_iff_canonical.mpr h, guard]

/-- **Files**: one that was written is read as the policies in it. -/
theorem read_contentsOf {policies : List StoredPolicy} (h : Canonical policies) :
    read (some (contentsOf policies)) = .ok policies := by
  have hdecode : decodeUtf8 (contentsOf policies) =
      some (String.ofList (stringify (ofJsValue (documentOf policies)) ++ ['\n'])) := by
    rw [decodeUtf8, contentsOf, fromUTF8?_toByteArray, Option.map_some, if_neg]
    rw [String.toList_ofList]
    simp [documentOf, ofJsValue, stringify, print]
  have hblanks : ∀ c ∈ ['\n'], isBlank c = true := by
    intro c hc
    rw [List.mem_singleton.mp hc]
    rfl
  rw [read, hdecode, Option.bind_some, String.toList_ofList,
    parseJs_stringify_blanks (isPlain_documentOf policies) hblanks, Option.bind_some,
    readDocument_documentOf h]

/-- What a save leaves. -/
theorem read_save {file : Option ByteArray} {policies : List StoredPolicy}
    (hread : read file = .ok policies) (hids : (policies.map (·.serviceId)).Nodup)
    (serviceId : String) (policy : ServiceAvailabilityPolicy) :
    ∃ file' policies', save serviceId policy file = .ok file' ∧ read file' = .ok policies' ∧
      policies'.Perm (policies.filter (fun entry : StoredPolicy => entry.serviceId ≠ serviceId) ++
        [⟨serviceId, policy⟩]) ∧ Canonical policies' := by
  have hnodup : ((policies.filter (fun entry : StoredPolicy => entry.serviceId ≠ serviceId) ++
      [(⟨serviceId, policy⟩ : StoredPolicy)]).map (·.serviceId)).Nodup := by
    rw [List.map_append, List.nodup_append]
    refine ⟨(List.filter_sublist.map _).nodup hids, by simp, fun a ha b hb => ?_⟩
    obtain ⟨entry, hentry, rfl⟩ := List.mem_map.mp ha
    rw [List.map_singleton, List.mem_singleton] at hb
    rw [hb]
    simpa using (List.mem_filter.mp hentry).2
  have hcanonical := canonical_sortPolicies hnodup
  refine ⟨_, _, ?_, read_contentsOf hcanonical, List.mergeSort_perm _ _, hcanonical⟩
  rw [save, hread]
  rfl

theorem saveAll_spec {entries : List StoredPolicy} {file : Option ByteArray}
    {policies : List StoredPolicy} (hread : read file = .ok policies) (hcanonical : Canonical policies)
    (hids : ((policies ++ entries).map (·.serviceId)).Nodup) :
    ∃ file' policies', saveAll entries file = .ok file' ∧ read file' = .ok policies' ∧
      policies'.Perm (policies ++ entries) ∧ Canonical policies' := by
  induction entries generalizing file policies with
  | nil => exact ⟨file, policies, rfl, hread, by simp, hcanonical⟩
  | cons entry entries ih =>
      obtain ⟨file', policies', hsave, hread', hperm, hcanonical'⟩ :=
        read_save hread (nodup_of_canonical hcanonical) entry.serviceId entry.policy
      -- the id of `entry` is new
      have hnew : policies.filter (fun other => other.serviceId ≠ entry.serviceId) = policies := by
        rw [List.filter_eq_self]
        intro other hother
        rw [List.map_append, List.nodup_append] at hids
        have hne := hids.2.2 _ (List.mem_map_of_mem hother) entry.serviceId (by simp)
        simpa using hne
      rw [hnew] at hperm
      have hall : (policies' ++ entries).Perm (policies ++ entry :: entries) := by
        simpa using hperm.append_right entries
      obtain ⟨file'', policies'', hsaveAll, hread'', hperm', hcanonical''⟩ :=
        ih hread' hcanonical' ((hall.map _).nodup_iff.mpr hids)
      refine ⟨file'', policies'', ?_, hread'', hperm'.trans hall, hcanonical''⟩
      rw [saveAll, List.foldlM_cons, hsave]
      exact hsaveAll

/-- **Policies are read back**: one from the text that is made of it, and those that are saved
under different ids, in whichever order, from the file, in the order of their ids. -/
theorem policies_readBack :
    (∀ policy, (parseJs (stringify (ofJsValue (serializePolicy policy)))).bind
      createServiceAvailabilityPolicy = some policy) ∧
    ∀ entries : List StoredPolicy, (entries.map (·.serviceId)).Nodup →
      ∃ file policies, saveAll entries none = .ok file ∧ read file = .ok policies ∧
        policies.Perm entries ∧
        policies.Pairwise fun a b => codeUnits a.serviceId < codeUnits b.serviceId := by
  refine ⟨fun policy => ?_, fun entries hids => ?_⟩
  · rw [parseJs_stringify_ofJsValue (isPlain_serializePolicy policy), Option.bind_some,
      createServiceAvailabilityPolicy_serializePolicy]
  · exact saveAll_spec rfl .nil hids

/-- Two policies, the second one saved first. -/
theorem policies_readBack_two :
    ∃ file policies, saveAll [⟨"web", .always⟩, ⟨"api", .manual⟩] none = .ok file ∧
      read file = .ok policies ∧ policies.Perm [⟨"web", .always⟩, ⟨"api", .manual⟩] ∧
      policies.Pairwise fun a b => codeUnits a.serviceId < codeUnits b.serviceId :=
  policies_readBack.2 [⟨"web", .always⟩, ⟨"api", .manual⟩] (by decide)

end AtlasManager.Service.FileServiceAvailabilityPolicyStore
