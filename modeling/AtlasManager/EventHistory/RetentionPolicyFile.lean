import AtlasManager.EventHistory.HistoryOperations

/-!
# AtlasManager.EventHistory.RetentionPolicyFile

The retention policy, as it is written and read again.

* `bounded_of_createRetentionPolicy` -- what the check of a policy has found;
* `createRetentionPolicy_written` -- **a checked policy is read** as it was written;
* `setRetentionPolicy_spec` -- which is what a call to set it does.
-/

namespace AtlasManager.EventHistory

open AtlasManager.Lib AtlasManager.Lib.Rfc8259 AtlasManager.Backup
open AtlasManager.Config (parseStrictJson)
open Json (IsFlat)

/-! ## Bounds -/

/-- The bounds that the structure of a policy does not state itself. -/
structure EventHistoryRetentionPolicy.Bounded (policy : EventHistoryRetentionPolicy) : Prop where
  minSealedSegments : policy.minSealedSegments ≤ 1000
  maxSealedSegments : policy.maxSealedSegments ≤ 10000
  maxSealedSegmentAgeDays : 1 ≤ policy.maxSealedSegmentAgeDays ∧ policy.maxSealedSegmentAgeDays ≤ 3650
  minExports : policy.minExports ≤ 100
  maxExports : 1 ≤ policy.maxExports ∧ policy.maxExports ≤ 1000
  maxExportAgeDays : 1 ≤ policy.maxExportAgeDays ∧ policy.maxExportAgeDays ≤ 3650

theorem boundedInteger_eq_ok {value : JsValue} {min max : Nat} {n : { n : Nat // min ≤ n }}
    (h : boundedInteger value min max = .ok n) : n.val ≤ max := by
  rw [boundedInteger] at h
  split at h
  · split_ifs at h with hbounds
    rw [← Except.ok.inj h]
    exact hbounds.2
  · cases h

theorem boundedInteger_nat {n min max : Nat} (hmin : min ≤ n) (hmax : n ≤ max) (hlt : n < 2 ^ 53) :
    boundedInteger (.num n) min max = .ok ⟨n, hmin⟩ := by
  simp only [boundedInteger, nonNegativeInteger?_nat hlt, hmin, hmax, and_self, dif_pos]

theorem bounded_of_createRetentionPolicy {input : JsValue} {policy : EventHistoryRetentionPolicy}
    (h : createRetentionPolicy input = .ok policy) : policy.Bounded := by
  simp only [createRetentionPolicy, bind_ok] at h
  obtain ⟨record, -, h⟩ := h
  split at h
  · split_ifs at h with hfields
    split at h
    · simp only [bind_ok] at h
      obtain ⟨minSegments, hminSegments, maxSegments, hmaxSegments, segmentAge, hsegmentAge, minExports,
        hminExports, maxExports, hmaxExports, exportAge, hexportAge, h⟩ := h
      split_ifs at h with hle
      obtain rfl := Except.ok.inj h
      exact {
        minSealedSegments := boundedInteger_eq_ok hminSegments
        maxSealedSegments := boundedInteger_eq_ok hmaxSegments
        maxSealedSegmentAgeDays := ⟨segmentAge.property, boundedInteger_eq_ok hsegmentAge⟩
        minExports := boundedInteger_eq_ok hminExports
        maxExports := ⟨maxExports.property, boundedInteger_eq_ok hmaxExports⟩
        maxExportAgeDays := ⟨exportAge.property, boundedInteger_eq_ok hexportAge⟩ }
    · cases h
  · cases h

/-! ## The text of a policy -/

section Written

variable {policy : EventHistoryRetentionPolicy}

/-- A record is read with its fields in order. -/
theorem decode_jsonLine {fields : Fields} (hwritable : IsWritable (.obj fields)) :
    decode (jsonLine fields) = .ok (sortJson (.obj fields)) := by
  have hsorted := isWritable_sortJson hwritable
  have hblanks : Ws [0x0A] [] := .cons (by decide) .nil
  have htext := isJsonText_write (literalsValid_treeOf (sortJson (.obj fields))) hblanks
  have hread : parseStrictJson (jsonLine fields) = .ok (treeOf (sortJson (.obj fields))).value :=
    Config.parse_eq_ok.mpr ⟨_, htext, fun _ => admitted_treeOf hsorted, rfl⟩
  rw [decode, hread]
  exact congrArg Except.ok (jsValue_value_treeOf hsorted)

/-- The fields of a record, put in order, are the same fields. -/
theorem sameFields_sortFields {fields : Fields} (hnodup : (fields.map Prod.fst).Nodup) :
    SameFields (sortFields fields) fields := by
  have hsorted : ((sortFields fields).map Prod.fst).Nodup :=
    ((perm_sortFields fields).map Prod.fst).nodup_iff.mpr hnodup
  intro name
  refine Option.ext fun value => ?_
  rw [← mem_iff_lookup hsorted (name, value), ← mem_iff_lookup hnodup (name, value)]
  exact (perm_sortFields fields).mem_iff

theorem length_sortFields (fields : Fields) : (sortFields fields).length = fields.length :=
  (perm_sortFields fields).length_eq

theorem isUnits_policyNames : ∀ name ∈ ["schemaVersion", "automaticPruneEnabled", "segments", "exports",
    "minSealedSegments", "maxSealedSegments", "maxSealedSegmentAgeDays", "minExports", "maxExports",
    "maxExportAgeDays"], IsUnits name := isUnits_of_all (by decide)

namespace EventHistoryRetentionPolicy.Bounded

theorem segmentNumbers (h : policy.Bounded) : policy.minSealedSegments < 2 ^ 53 ∧
    policy.maxSealedSegments < 2 ^ 53 ∧ policy.maxSealedSegmentAgeDays < 2 ^ 53 := by
  have hmin := h.minSealedSegments
  have hmax := h.maxSealedSegments
  have hage := h.maxSealedSegmentAgeDays
  omega

theorem exportNumbers (h : policy.Bounded) : policy.minExports < 2 ^ 53 ∧
    policy.maxExports < 2 ^ 53 ∧ policy.maxExportAgeDays < 2 ^ 53 := by
  have hmin := h.minExports
  have hmax := h.maxExports
  have hage := h.maxExportAgeDays
  omega

theorem isWritable_segmentFields (h : policy.Bounded) : IsWritable (.obj policy.segmentFields) := by
  obtain ⟨hmin, hmax, hage⟩ := h.segmentNumbers
  exact ⟨by simp [segmentFields], isUnits_policyNames _ (by decide), isWritable_nat hmin,
    isUnits_policyNames _ (by decide), isWritable_nat hmax, isUnits_policyNames _ (by decide),
    isWritable_nat hage, trivial⟩

theorem isWritable_exportFields (h : policy.Bounded) : IsWritable (.obj policy.exportFields) := by
  obtain ⟨hmin, hmax, hage⟩ := h.exportNumbers
  exact ⟨by simp [exportFields], isUnits_policyNames _ (by decide), isWritable_nat hmin,
    isUnits_policyNames _ (by decide), isWritable_nat hmax, isUnits_policyNames _ (by decide),
    isWritable_nat hage, trivial⟩

theorem isWritable_fields (h : policy.Bounded) : IsWritable (.obj policy.fields) :=
  ⟨by simp [fields], isUnits_policyNames _ (by decide), isWritable_nat (by decide),
    isUnits_policyNames _ (by decide), trivial, isUnits_policyNames _ (by decide),
    h.isWritable_segmentFields, isUnits_policyNames _ (by decide), h.isWritable_exportFields, trivial⟩

end EventHistoryRetentionPolicy.Bounded

/-- The fields of a policy with the inner ones in order. -/
def sortedPolicyFields (policy : EventHistoryRetentionPolicy) : Fields :=
  [("schemaVersion", .num 1), ("automaticPruneEnabled", .bool policy.automaticPruneEnabled),
    ("segments", .obj (sortFields policy.segmentFields)),
    ("exports", .obj (sortFields policy.exportFields))]

/-- **A checked policy is read** as it was written. -/
theorem createRetentionPolicy_written (h : policy.Bounded) :
    decode (jsonLine policy.fields) >>= createRetentionPolicy = .ok policy := by
  have hsorted : sortJson (.obj policy.fields) = .obj (sortFields (sortedPolicyFields policy)) := rfl
  have hsame : SameFields (sortFields (sortedPolicyFields policy)) (sortedPolicyFields policy) :=
    sameFields_sortFields (by simp [sortedPolicyFields])
  have hsegments : SameFields (sortFields policy.segmentFields) policy.segmentFields :=
    sameFields_sortFields (by simp [EventHistoryRetentionPolicy.segmentFields])
  have hexports : SameFields (sortFields policy.exportFields) policy.exportFields :=
    sameFields_sortFields (by simp [EventHistoryRetentionPolicy.exportFields])
  have hexact : hasExactFields (sortFields (sortedPolicyFields policy))
      ["schemaVersion", "automaticPruneEnabled", "segments", "exports"] = true := by
    rw [hsame.hasExactFields (length_sortFields _)]
    simp [hasExactFields, hasFieldOutside, sortedPolicyFields]
  have hexactSegments : hasExactFields (sortFields policy.segmentFields)
      ["minSealedSegments", "maxSealedSegments", "maxSealedSegmentAgeDays"] = true := by
    rw [hsegments.hasExactFields (length_sortFields _)]
    simp [hasExactFields, hasFieldOutside, EventHistoryRetentionPolicy.segmentFields]
  have hexactExports : hasExactFields (sortFields policy.exportFields)
      ["minExports", "maxExports", "maxExportAgeDays"] = true := by
    rw [hexports.hasExactFields (length_sortFields _)]
    simp [hasExactFields, hasFieldOutside, EventHistoryRetentionPolicy.exportFields]
  have hrequired := requireExactRecord_eq_ok.mpr
    (And.intro (Eq.refl (JsValue.obj (sortFields (sortedPolicyFields policy)))) hexact)
  have hread : ∀ name value, (sortedPolicyFields policy).lookup name = some value →
      field (sortFields (sortedPolicyFields policy)) name = value := by
    intro name value hlookup
    rw [hsame.field, field_of_lookup hlookup]
  have hreadSegment : ∀ name value, policy.segmentFields.lookup name = some value →
      field (sortFields policy.segmentFields) name = value := by
    intro name value hlookup
    rw [hsegments.field, field_of_lookup hlookup]
  have hreadExport : ∀ name value, policy.exportFields.lookup name = some value →
      field (sortFields policy.exportFields) name = value := by
    intro name value hlookup
    rw [hexports.field, field_of_lookup hlookup]
  obtain ⟨hminSegments, hmaxSegments, hsegmentAge⟩ := h.segmentNumbers
  obtain ⟨hminExports, hmaxExports, hexportAge⟩ := h.exportNumbers
  rw [decode_jsonLine h.isWritable_fields, hsorted]
  simp only [createRetentionPolicy, hrequired, bind, Except.bind, hread "segments" _ rfl,
    hread "exports" _ rfl, hexactSegments, hexactExports, hread "schemaVersion" _ rfl,
    hread "automaticPruneEnabled" _ rfl, hreadSegment "minSealedSegments" _ rfl,
    hreadSegment "maxSealedSegments" _ rfl, hreadSegment "maxSealedSegmentAgeDays" _ rfl,
    hreadExport "minExports" _ rfl, hreadExport "maxExports" _ rfl, hreadExport "maxExportAgeDays" _ rfl,
    boundedInteger_nat policy.segments_pos h.minSealedSegments hminSegments,
    boundedInteger_nat (policy.segments_pos.trans policy.segments_le) h.maxSealedSegments hmaxSegments,
    boundedInteger_nat h.maxSealedSegmentAgeDays.1 h.maxSealedSegmentAgeDays.2 hsegmentAge,
    boundedInteger_nat (Nat.zero_le _) h.minExports hminExports,
    boundedInteger_nat h.maxExports.1 h.maxExports.2 hmaxExports,
    boundedInteger_nat h.maxExportAgeDays.1 h.maxExportAgeDays.2 hexportAge, Bool.not_true, Bool.or_self,
    Bool.false_eq_true, if_false, policy.segments_le, policy.exports_le, and_self, dif_pos]
  rfl

end Written

/-! ## Setting the policy -/

/-- **A call to set the policy** writes the one that has been checked, which is read from then on, or
leaves everything as it was. -/
theorem setRetentionPolicy_spec (limits : HistoryLimits) {disk : Option Root} (input : JsValue)
    (hfault : (ensureRoot disk).fault = none) :
    (∃ code, createRetentionPolicy input = .error code ∧
      setRetentionPolicy input disk = (.error code, disk)) ∨
    ∃ policy, createRetentionPolicy input = .ok policy ∧
      setRetentionPolicy input disk =
        (.ok policy, some { ensureRoot disk with policy := some (jsonLine policy.fields) }) ∧
      readPolicy limits (setRetentionPolicy input disk).2 = .ok policy := by
  cases hcreate : createRetentionPolicy input with
  | error code =>
      refine .inl ⟨code, rfl, ?_⟩
      simp only [setRetentionPolicy, hcreate]
  | ok policy =>
      have hset : setRetentionPolicy input disk =
          (.ok policy, some { ensureRoot disk with policy := some (jsonLine policy.fields) }) := by
        simp only [setRetentionPolicy, hcreate, hfault]
      refine .inr ⟨policy, rfl, hset, ?_⟩
      rw [hset]
      exact createRetentionPolicy_written (bounded_of_createRetentionPolicy hcreate)

end AtlasManager.EventHistory
