import AtlasManager.Lib.JsonValues
import AtlasManager.EventHistory.AdministrativeEvent

/-!
# AtlasManager.EventHistory.ReadFields

What the parts of a check of details read of a record.

* `SameFields` -- two records with the same own fields, in whatever order;
* `Reads` -- a part of a check has read a flat field, or found none;
* `sameFields_freezeDefined` -- the fields that have been read make up the record again.
-/

namespace AtlasManager.EventHistory

open AtlasManager.Lib AtlasManager.Backup AtlasManager.AccessControl

/-! ## Reading the parts of a check back -/

theorem bind_eq_ok {α β : Type} {x : Check α} {f : α → Check β} {b : β} :
    (x >>= f) = .ok b ↔ ∃ a, x = .ok a ∧ f a = .ok b := by
  constructor
  · exact exists_of_bind_ok
  · intro h
    obtain ⟨a, ha, hb⟩ := h
    rw [ha, ok_bind, hb]

@[simp] theorem require_eq_ok {condition : Bool} {code : AdministrativeEventValidationErrorCode}
    {u : Unit} : require condition code = .ok u ↔ condition = true := by
  cases condition <;> simp [require]

@[simp] theorem require_true (code : AdministrativeEventValidationErrorCode) :
    require true code = .ok () := rfl

@[simp] theorem assertAllowedKeys_eq_ok {record : Fields} {allowed : List String} {u : Unit} :
    assertAllowedKeys record allowed = .ok u ↔ hasFieldOutside allowed record = false := by
  simp [assertAllowedKeys]

theorem requireOneOf_eq_ok {record : Fields} {name : String} {allowed : List String} {value : JsValue} :
    requireOneOf record name allowed = .ok value ↔
      ∃ text ∈ allowed, field record name = .str text ∧ value = .str text := by
  rw [requireOneOf]
  split
  · split_ifs with hmem <;> grind
  · grind

theorem requireFailureCode_eq_ok {record : Fields} {name : String} {value : JsValue} :
    requireFailureCode record name = .ok value ↔
      ∃ text ∈ safeFailureCodes, field record name = .str text ∧ value = .str text := by
  rw [requireFailureCode]
  split
  · split_ifs with hmem <;> grind
  · grind

theorem requireTimestampField_eq_ok {record : Fields} {name : String} {value : JsValue} :
    requireTimestampField record name = .ok value ↔
      ∃ t : Timestamp, field record name = .str t.text ∧ value = .str t.text := by
  rw [requireTimestampField]
  cases hfield : field record name with
  | str s =>
      rw [JsValue.timestamp?]
      cases htime : Timestamp.ofText? s with
      | none =>
          simp only [reduceCtorEq, JsValue.str.injEq, false_iff, not_exists, not_and]
          intro t hs
          rw [hs, Timestamp.ofText?_text] at htime
          cases htime
      | some t =>
          have hs := Timestamp.text_ofText? htime
          simp only [Except.ok.injEq, JsValue.str.injEq]
          constructor
          · exact fun h => ⟨t, hs.symm, h.symm⟩
          · intro h
            obtain ⟨t', ht', rfl⟩ := h
            rw [hs, ht']
  | _ => simp [JsValue.timestamp?]

/-! ## Fields in whatever order -/

/-- Two records with the same own fields, in whatever order. -/
def SameFields (a b : Fields) : Prop := ∀ name, a.lookup name = b.lookup name

section SameFields

variable {a b : Fields} (h : SameFields a b)

include h

theorem SameFields.field (name : String) : field a name = field b name := by
  rw [Lib.field, Lib.field, h name]

theorem SameFields.hasOwn (name : String) : hasOwn a name = hasOwn b name := by
  rw [Lib.hasOwn, Lib.hasOwn, h name]

theorem SameFields.hasFieldOutside (allowed : List String) :
    hasFieldOutside allowed a = hasFieldOutside allowed b := by
  have hmem : ∀ name, name ∈ a.map Prod.fst ↔ name ∈ b.map Prod.fst := by
    intro name
    have hnone := Iff.of_eq (congrArg (· = none) (h name))
    rw [List.lookup_eq_none_iff, List.lookup_eq_none_iff] at hnone
    simp only [bne_iff_ne] at hnone
    have hnot := not_congr hnone
    simpa [eq_comm] using hnot
  rw [Lib.hasFieldOutside, Lib.hasFieldOutside, Bool.eq_iff_iff, List.any_eq_true, List.any_eq_true]
  constructor
  · intro houtside
    obtain ⟨f, hf, houtside⟩ := houtside
    obtain ⟨g, hg, heq⟩ := List.mem_map.mp ((hmem f.1).mp (List.mem_map_of_mem hf))
    exact ⟨g, hg, heq ▸ houtside⟩
  · intro houtside
    obtain ⟨f, hf, houtside⟩ := houtside
    obtain ⟨g, hg, heq⟩ := List.mem_map.mp ((hmem f.1).mpr (List.mem_map_of_mem hf))
    exact ⟨g, hg, heq ▸ houtside⟩

theorem SameFields.hasExactFields (hlength : a.length = b.length) (names : List String) :
    hasExactFields a names = hasExactFields b names := by
  rw [EventHistory.hasExactFields, EventHistory.hasExactFields, h.hasFieldOutside, hlength]

theorem SameFields.boundedCounts (names : List String) : boundedCounts a names = boundedCounts b names := by
  simp only [EventHistory.boundedCounts, h.field, h.hasOwn]

end SameFields

/-! ## Parts of a check -/

/-- A field that a record has, with its flat value, or `none`. -/
def Reads (record : Fields) (name : String) (value : Option JsValue) : Prop :=
  record.lookup name = value ∧ ∀ v ∈ value, Json.IsFlat v

theorem reads_of_hasOwn {record : Fields} {name : String} {value : JsValue}
    (hown : hasOwn record name = true) (hvalue : field record name = value)
    (hflat : Json.IsFlat value) : Reads record name (some value) := by
  obtain ⟨v, hv⟩ := Option.isSome_iff_exists.mp hown
  rw [field, hv, Option.getD_some] at hvalue
  rw [← hvalue] at hflat ⊢
  refine ⟨hv, fun w hw => ?_⟩
  rw [← Option.some.inj hw]
  exact hflat

/-- A field with a value is there. -/
theorem reads_of_field {record : Fields} {name : String} {value : JsValue}
    (hvalue : field record name = value) (hdefined : value ≠ .undefined)
    (hflat : Json.IsFlat value) : Reads record name (some value) := by
  refine reads_of_hasOwn ?_ hvalue hflat
  rw [field] at hvalue
  rw [hasOwn]
  cases hlookup : record.lookup name with
  | none =>
      rw [hlookup] at hvalue
      exact absurd hvalue.symm hdefined
  | some v => rfl

theorem reads_of_not_hasOwn {record : Fields} {name : String} (hown : ¬ hasOwn record name = true) :
    Reads record name none := by
  rw [hasOwn, Bool.not_eq_true, Option.isSome_eq_false_iff, Option.isNone_iff_eq_none] at hown
  exact ⟨hown, by simp⟩

/-- An optional check gives the field that the record has. -/
theorem reads_of_optional {record : Fields} {name : String} {check : Fields → String → Check JsValue}
    {value : Option JsValue} (h : optional record name check = .ok value)
    (hcheck : ∀ v, check record name = .ok v → field record name = v ∧ Json.IsFlat v) :
    Reads record name value := by
  rw [optional] at h
  split_ifs at h with hown
  · cases hvalue : check record name with
    | error code => simp [hvalue, Except.map] at h
    | ok v =>
        obtain rfl : some v = value := by simpa [hvalue, Except.map] using h
        obtain ⟨hfield, hflat⟩ := hcheck v hvalue
        exact reads_of_hasOwn hown hfield hflat
  · obtain rfl := Except.ok.inj h
    exact reads_of_not_hasOwn hown

theorem reads_of_requireOneOf {record : Fields} {name : String} {allowed : List String} {value : JsValue}
    (h : requireOneOf record name allowed = .ok value) : Reads record name (some value) := by
  obtain ⟨text, -, hfield, rfl⟩ := requireOneOf_eq_ok.mp h
  exact reads_of_field hfield (by simp) trivial

theorem reads_of_requireTimestampField {record : Fields} {name : String} {value : JsValue}
    (h : requireTimestampField record name = .ok value) : Reads record name (some value) := by
  obtain ⟨t, hfield, rfl⟩ := requireTimestampField_eq_ok.mp h
  exact reads_of_field hfield (by simp) trivial

theorem reads_optionalOneOf {record : Fields} {name : String} {allowed : List String}
    {value : Option JsValue}
    (h : (optional record name fun record name => requireOneOf record name allowed) = .ok value) :
    Reads record name value := by
  refine reads_of_optional h fun v hv => ?_
  obtain ⟨text, -, hfield, rfl⟩ := requireOneOf_eq_ok.mp hv
  exact ⟨hfield, trivial⟩

theorem reads_optionalFailureCode {record : Fields} {value : Option JsValue}
    (h : optionalFailureCode record = .ok value) : Reads record "failureCode" value := by
  refine reads_of_optional h fun v hv => ?_
  obtain ⟨text, -, hfield, rfl⟩ := requireFailureCode_eq_ok.mp hv
  exact ⟨hfield, trivial⟩

theorem reads_optionalTimestamp {record : Fields} {name : String} {value : Option JsValue}
    (h : optional record name requireTimestampField = .ok value) : Reads record name value := by
  refine reads_of_optional h fun v hv => ?_
  obtain ⟨t, hfield, rfl⟩ := requireTimestampField_eq_ok.mp hv
  exact ⟨hfield, trivial⟩

theorem reads_optionalBoolean {record : Fields} {name : String} {value : Option JsValue}
    (h : optionalBoolean record name = .ok value) : Reads record name value := by
  refine reads_of_optional h fun v hv => ?_
  cases hfield : field record name with
  | bool b =>
      simp only [hfield, Except.ok.injEq] at hv
      rw [← hv]
      exact ⟨rfl, trivial⟩
  | _ => simp [hfield] at hv

theorem reads_optionalAccepted {record : Fields} {value : Option JsValue}
    (h : optionalAccepted record = .ok value) : Reads record "shutdownAccepted" value := by
  refine reads_of_optional h fun v hv => ?_
  split_ifs at hv with hfield
  · obtain rfl := Except.ok.inj hv
    exact ⟨hfield, trivial⟩

theorem flat_of_isBoundedCount {value : JsValue} (h : isBoundedCount value = true) :
    Json.IsFlat value := by
  rw [isBoundedCount] at h
  cases value with
  | num q =>
      rw [JsValue.integer?] at h
      split_ifs at h with hden
      · simp only [Bool.decide_and, Bool.and_eq_true, decide_eq_true_eq] at h
        refine ⟨Rat.num_nonneg.mp h.1, hden, ?_⟩
        rw [← Rat.coe_int_num_of_den_eq_one hden]
        exact_mod_cast lt_of_le_of_lt h.2 (by norm_num)
  | _ => simp [JsValue.integer?] at h

theorem reads_optionalCount {record : Fields} {value : Option JsValue}
    (h : optionalCount record = .ok value) :
    Reads record (if hasOwn record "completedStepCount" then "completedStepCount" else "occurrenceCount")
      value := by
  simp only [optionalCount] at h
  refine reads_of_optional h fun v hv => ?_
  generalize (if hasOwn record "completedStepCount" = true then "completedStepCount"
    else "occurrenceCount") = name at hv ⊢
  split_ifs at hv with hcount
  · obtain rfl := Except.ok.inj hv
    exact ⟨rfl, flat_of_isBoundedCount hcount⟩

theorem flat_of_codes {values : List JsValue} {codes : List String}
    (h : (values.all fun value => codes.any fun code => value = .str code) = true) :
    Json.IsFlat (.arr values) := by
  intro value hvalue
  obtain ⟨code, -, hcode⟩ := List.any_eq_true.mp (List.all_eq_true.mp h value hvalue)
  rw [of_decide_eq_true hcode]
  trivial

theorem reads_optionalBlockerCodes {record : Fields} {value : Option JsValue}
    (h : optionalBlockerCodes record = .ok value) : Reads record "blockerCodes" value := by
  refine reads_of_optional h fun v hv => ?_
  cases hfield : field record "blockerCodes" with
  | arr values =>
      simp only [hfield] at hv
      split_ifs at hv with hcodes
      · obtain rfl := Except.ok.inj hv
        exact ⟨rfl, flat_of_codes hcodes⟩
  | _ => simp [hfield] at hv

theorem lookup_eq_none_of_outside {allowed : List String} {record : Fields} {name : String}
    (hallowed : hasFieldOutside allowed record = false) (hname : name ∉ allowed) :
    record.lookup name = none := by
  rw [List.lookup_eq_none_iff]
  intro f hf
  rw [bne_iff_ne]
  intro heq
  rw [hasFieldOutside, List.any_eq_false] at hallowed
  exact hallowed f hf (by simpa [← heq] using hname)

theorem sublist_freezeDefined (fields : List (String × Option JsValue)) :
    ((freezeDefined fields).map Prod.fst).Sublist (fields.map Prod.fst) := by
  induction fields with
  | nil => exact List.Sublist.refl _
  | cons f fields ih =>
      obtain ⟨name, value⟩ := f
      cases value with
      | none => exact ih.cons _
      | some v => exact ih.cons_cons _

theorem lookup_freezeDefined {fields : List (String × Option JsValue)}
    (hnodup : (fields.map Prod.fst).Nodup) {name : String} {value : Option JsValue}
    (hmem : (name, value) ∈ fields) : (freezeDefined fields).lookup name = value := by
  induction fields with
  | nil => cases hmem
  | cons f fields ih =>
      obtain ⟨first, content⟩ := f
      rw [List.map_cons, List.nodup_cons] at hnodup
      cases List.mem_cons.mp hmem with
      | inl heq =>
          obtain ⟨rfl, rfl⟩ := Prod.mk.inj heq
          cases value with
          | none =>
              show (freezeDefined fields).lookup name = none
              rw [List.lookup_eq_none_iff]
              intro g hg
              rw [bne_iff_ne]
              rintro rfl
              exact hnodup.1 ((sublist_freezeDefined fields).subset (List.mem_map_of_mem hg))
          | some v => simp [freezeDefined]
      | inr hrest =>
          have hne : (name == first) = false := by
            rw [beq_eq_false_iff_ne]
            rintro rfl
            exact hnodup.1 (List.mem_map.mpr ⟨(name, value), hrest, rfl⟩)
          cases content with
          | none => exact ih hnodup.2 hrest
          | some v =>
              show ((first, v) :: freezeDefined fields).lookup name = value
              rw [List.lookup_cons, hne]
              exact ih hnodup.2 hrest

/-- The fields that have been read make up the record again. -/
theorem sameFields_freezeDefined {fields : List (String × Option JsValue)} {record : Fields}
    (hnodup : (fields.map Prod.fst).Nodup) (hreads : ∀ f ∈ fields, Reads record f.1 f.2)
    (hallowed : hasFieldOutside (fields.map Prod.fst) record = false) :
    SameFields (freezeDefined fields) record := by
  intro name
  by_cases hname : name ∈ fields.map Prod.fst
  · obtain ⟨f, hf, rfl⟩ := List.mem_map.mp hname
    rw [lookup_freezeDefined hnodup hf, (hreads f hf).1]
  · rw [lookup_eq_none_of_outside hallowed hname, List.lookup_eq_none_iff]
    intro g hg
    rw [bne_iff_ne]
    rintro rfl
    exact hname ((sublist_freezeDefined fields).subset (List.mem_map_of_mem hg))

theorem hasOwn_eq_false_of_outside {allowed : List String} {record : Fields} {name : String}
    (hallowed : hasFieldOutside allowed record = false) (hname : name ∉ allowed) :
    hasOwn record name = false := by
  rw [hasOwn, lookup_eq_none_of_outside hallowed hname]
  rfl

/-- The number of steps, in a record that cannot have a number of occurrences. -/
theorem reads_completedStepCount {allowed : List String} {record : Fields} {value : Option JsValue}
    (hallowed : hasFieldOutside allowed record = false) (hname : "occurrenceCount" ∉ allowed)
    (h : optionalCount record = .ok value) : Reads record "completedStepCount" value := by
  have hreads := reads_optionalCount h
  by_cases hown : hasOwn record "completedStepCount" = true
  · rwa [if_pos hown] at hreads
  · rw [if_neg hown] at hreads
    have hvalue : value = none := by
      rw [← hreads.1]
      exact lookup_eq_none_of_outside hallowed hname
    rw [hvalue]
    exact reads_of_not_hasOwn hown

/-- The number of occurrences, in a record that cannot have a number of steps. -/
theorem reads_occurrenceCount {allowed : List String} {record : Fields} {value : Option JsValue}
    (hallowed : hasFieldOutside allowed record = false) (hname : "completedStepCount" ∉ allowed)
    (h : optionalCount record = .ok value) : Reads record "occurrenceCount" value := by
  have hreads := reads_optionalCount h
  rwa [hasOwn_eq_false_of_outside hallowed hname, if_neg (by decide)] at hreads


/-- The bounded counts of a record, as optional fields. -/
theorem boundedCounts_eq_ok {record fields : Fields} {names : List String}
    (h : boundedCounts record names = .ok fields) :
    fields = freezeDefined (names.map fun name => (name, record.lookup name)) ∧
      ∀ name ∈ names, Reads record name (record.lookup name) := by
  simp only [boundedCounts, bind_eq_ok, require_eq_ok, List.all_eq_true, Bool.or_eq_true,
    Bool.not_eq_true'] at h
  obtain ⟨-, hcounts, h⟩ := h
  obtain rfl := Except.ok.inj h
  refine ⟨?_, fun name hname => ⟨rfl, fun v hv => ?_⟩⟩
  · rw [freezeDefined, List.filterMap_map]
    refine List.filterMap_congr fun name _ => ?_
    rw [Function.comp_apply, hasOwn, field]
    cases record.lookup name <;> rfl
  · have hfield : field record name = v := by rw [field, hv]; rfl
    have hcount := (hcounts name hname).resolve_left (by rw [hasOwn, hv]; simp)
    rw [hfield] at hcount
    exact flat_of_isBoundedCount hcount

/-- A successful operation on the history keeps its details as they are, and they are flat. -/
theorem flat_of_operationalDetails {record fields : Fields} (hnodup : (record.map Prod.fst).Nodup)
    (h : createEventHistoryOperationalDetails .succeeded record = .ok fields) :
    fields = record ∧ ∀ f ∈ record, Json.IsFlat f.2 := by
  simp only [createEventHistoryOperationalDetails, bind_eq_ok, assertAllowedKeys_eq_ok,
    require_eq_ok] at h
  obtain ⟨-, hallowed, -, houtcome, counts, hcounts, -, hexport, h⟩ := h
  obtain rfl := Except.ok.inj h
  refine ⟨rfl, fun f hf => ?_⟩
  have hlookup := lookup_of_mem hnodup hf
  have hfield : field record f.1 = f.2 := by rw [field, hlookup]; rfl
  have hown : hasOwn record f.1 = true := by rw [hasOwn, hlookup]; rfl
  have hname : f.1 ∈ ["outcome", "firstSequence", "lastSequence", "processedSegmentCount",
      "processedExportCount", "exportId"] := by
    rw [hasFieldOutside, List.any_eq_false] at hallowed
    by_contra hnot
    exact hallowed f hf (by simpa using hnot)
  by_cases hcount : f.1 ∈ ["firstSequence", "lastSequence", "processedSegmentCount",
      "processedExportCount"]
  · exact (((boundedCounts_eq_ok hcounts).2 f.1 hcount).2) f.2 hlookup
  · by_cases htext : f.1 = "outcome"
    · rw [← htext, hown, hfield] at houtcome
      cases hvalue : f.2 with
      | str text => trivial
      | _ => simp [hvalue] at houtcome
    · have hlast : f.1 = "exportId" := by
        simp only [List.mem_cons, List.not_mem_nil, or_false] at hname hcount
        tauto
      rw [← hlast, hown, hfield] at hexport
      cases hvalue : f.2 with
      | str text => trivial
      | _ => simp [hvalue] at hexport

end AtlasManager.EventHistory
