import AtlasManager.EventHistory.EventHistoryRecord

/-!
# AtlasManager.EventHistory.CheckedEvents

The events that the check has made, and what it makes of them when they are read again.

* `createAdministrativeEvent_again` -- the check takes its own results, as they are;
* `isWritable_fields` -- a text can hold every field of such an event;
* `createAdministrativeEvent_sameJson` -- what has been read is the event that comes of it, up to
  details of wake alarms that nobody looked at;
* `createAdministrativeEvent_accepts` -- and whatever is so is read as that event.
-/

namespace AtlasManager.EventHistory

open AtlasManager.Lib AtlasManager.Lib.Rfc8259 AtlasManager.Backup AtlasManager.AccessControl
open Json (IsScalar IsFlat)

/-- An event that the check has made of a value of JavaScript. -/
def Checked (event : AdministrativeEvent) : Prop :=
  ∃ input, IsJs input ∧ createAdministrativeEvent input = .ok event

/-! ## Fields of records -/

theorem lookup_of_field {record : Fields} {name : String} {value : JsValue}
    (h : field record name = value) (hdefined : value ≠ .undefined) :
    record.lookup name = some value := by
  rw [field] at h
  cases hlookup : record.lookup name with
  | none =>
      rw [hlookup] at h
      exact absurd h.symm hdefined
  | some v =>
      rw [hlookup] at h
      rw [← h]
      rfl

theorem field_of_lookup {record : Fields} {name : String} {value : JsValue}
    (h : record.lookup name = some value) : field record name = value := by
  rw [field, h]
  rfl

/-- Fields of a value of JavaScript are such values. -/
theorem isJs_of_lookup {record : Fields} {name : String} {value : JsValue} (hjs : IsJs (.obj record))
    (h : record.lookup name = some value) : IsJs value := by
  rw [IsJs] at hjs
  exact (fieldsAreJs_iff.mp hjs.2 _ ((mem_iff_lookup hjs.1 (name, value)).mpr h)).2

theorem sameJson_of_names {a b : Fields} {names : List String} (ha : (a.map Prod.fst).Nodup)
    (hb : (b.map Prod.fst).Nodup) (houta : hasFieldOutside names a = false)
    (houtb : hasFieldOutside names b = false)
    (h : ∀ name ∈ names, (a.lookup name).map sortJson = (b.lookup name).map sortJson) :
    SameJson (.obj a) (.obj b) := by
  rw [sameJson_obj ha hb]
  intro name
  by_cases hname : name ∈ names
  · exact h name hname
  · rw [lookup_eq_none_of_outside houta hname, lookup_eq_none_of_outside houtb hname]

/-- Records with the same fields are the same. -/
theorem SameFields.sameJson {a b : Fields} (h : SameFields a b) (ha : (a.map Prod.fst).Nodup)
    (hb : (b.map Prod.fst).Nodup) : SameJson (.obj a) (.obj b) := by
  rw [sameJson_obj ha hb]
  intro name
  rw [h name]

/-- Where sorting shows a flat value, there was that value. -/
theorem lookup_eq_of_flat {a b : Fields} {name : String} {value : JsValue}
    (h : (a.lookup name).map sortJson = (b.lookup name).map sortJson)
    (hb : b.lookup name = some value) (hflat : IsFlat value) : a.lookup name = some value := by
  rw [hb, Option.map_some, sortJson_of_isFlat hflat, Option.map_eq_some_iff] at h
  obtain ⟨v, hv, hsorted⟩ := h
  rw [hv, eq_of_sortJson_isFlat hflat hsorted]

/-- A record that is the same as one with flat fields has these fields. -/
theorem sameFields_of_sameJson {a b : Fields} (ha : (a.map Prod.fst).Nodup)
    (hb : (b.map Prod.fst).Nodup) (hflat : ∀ f ∈ b, IsFlat f.2) (h : SameJson (.obj a) (.obj b)) :
    SameFields a b := by
  intro name
  have hsame := (sameJson_obj ha hb).mp h name
  cases hlookup : b.lookup name with
  | none => simpa [hlookup] using hsame
  | some value =>
      refine lookup_eq_of_flat hsame hlookup ?_
      exact hflat (name, value) ((mem_iff_lookup hb (name, value)).mpr hlookup)

/-! ## The fields of an event -/

namespace AdministrativeEvent

variable (event : AdministrativeEvent)

theorem names_fields : event.fields.map Prod.fst =
    ["sequence", "attemptId", "occurredAt", "source", "target", "operation", "status"] ++
      if event.details.isSome then ["details"] else [] := by
  cases hdetails : event.details <;> simp [fields, hdetails]

theorem nodup_names_fields : (event.fields.map Prod.fst).Nodup := by
  rw [names_fields]
  cases event.details.isSome <;> decide

theorem assertFields_fields : assertFields event.fields eventNames = .ok () := by
  rw [assertFields_eq_ok]
  cases hdetails : event.details <;> simp [fields, hdetails, hasFieldOutside, eventNames, inputNames]

theorem lookup_details : event.fields.lookup "details" = event.details.map .obj := by
  cases hdetails : event.details <;> simp [fields, hdetails, List.lookup]

/-- The fields besides the details. -/
theorem lookup_fields :
    event.fields.lookup "sequence" = some (.num event.sequence) ∧
    event.fields.lookup "attemptId" = some (.str event.attemptId) ∧
    event.fields.lookup "occurredAt" = some (.str event.occurredAt) ∧
    event.fields.lookup "source" = some (.obj (sourceFields event.source)) ∧
    event.fields.lookup "target" = some (.obj targetFields) ∧
    event.fields.lookup "operation" = some (.str event.operation.text) ∧
    event.fields.lookup "status" = some (.str event.status.text) := by
  simp [fields, List.lookup]

end AdministrativeEvent

/-! ## Events that have been made -/

theorem exists_record {event : AdministrativeEvent} (h : Checked event) :
    ∃ record, IsJs (.obj record) ∧ createAdministrativeEvent (.obj record) = .ok event := by
  obtain ⟨input, hjs, hmade⟩ := h
  cases input with
  | obj record => exact ⟨record, hjs, hmade⟩
  | _ => cases hmade

theorem obj_of_createSource {value : JsValue} {source : AdministrativeEventSource}
    (h : createSource value = .ok source) : ∃ record, value = .obj record := by
  cases value with
  | obj record => exact ⟨record, rfl⟩
  | _ => cases h

theorem obj_of_createTarget {value : JsValue} (h : createTarget value = .ok ()) :
    ∃ record, value = .obj record := by
  cases value with
  | obj record => exact ⟨record, rfl⟩
  | _ => cases h

/-- The source and the target of a checked event are what has been read. -/
theorem read_records {record : Fields} {event : AdministrativeEventInput} (hjs : IsJs (.obj record))
    (h : ReadsEvent record event) : ∃ source target,
      record.lookup "source" = some (.obj source) ∧ IsJs (.obj source) ∧
      SameFields (sourceFields event.source) source ∧ createSource (.obj source) = .ok event.source ∧
      record.lookup "target" = some (.obj target) ∧ IsJs (.obj target) ∧
      SameFields targetFields target ∧ createTarget (.obj target) = .ok () := by
  have hsource := h.source
  have htarget := h.target
  obtain ⟨source, hs⟩ := obj_of_createSource hsource
  obtain ⟨target, ht⟩ := obj_of_createTarget htarget
  rw [hs] at hsource
  rw [ht] at htarget
  have hsl := lookup_of_field hs (by simp)
  have htl := lookup_of_field ht (by simp)
  exact ⟨source, target, hsl, isJs_of_lookup hjs hsl, sameFields_source hsource, hsource,
    htl, isJs_of_lookup hjs htl, sameFields_target htarget, htarget⟩

theorem nodup_sourceFields (source : AdministrativeEventSource) :
    ((sourceFields source).map Prod.fst).Nodup := by
  simp [sourceFields]

theorem nodup_targetFields : (targetFields.map Prod.fst).Nodup := by decide

/-- The check of the source takes its own results. -/
theorem createSource_again {record : Fields} {source : AdministrativeEventSource}
    (hnodup : (record.map Prod.fst).Nodup) (h : createSource (.obj record) = .ok source) :
    createSource (.obj (sourceFields source)) = .ok source := by
  have hsame := sameFields_source h
  have hlength := (perm_of_lookup (nodup_sourceFields source) hnodup hsame).length_eq
  rw [createSource_congr hsame hlength, h]

/-- What is known of the details of an event: they are the flat fields of the record that was
checked, and they pass the check again. -/
theorem read_details {record : Fields} {event : AdministrativeEventInput} (hjs : IsJs (.obj record))
    (h : ReadsEvent record event) {details : Fields} (hdetails : event.details = some details) :
    ∃ raw, record.lookup "details" = some (.obj raw) ∧ IsJs (.obj raw) ∧
      createDetails event.operation event.status (.obj raw) = .ok (some details) ∧
      Selects raw details ∧
      (isLoose event.operation event.status = false → SameFields details raw) := by
  have hread := h.details
  rw [hdetails] at hread
  by_cases hown : hasOwn record "details" = true
  · rw [if_pos hown] at hread
    cases hvalue : field record "details" with
    | obj raw =>
        rw [hvalue] at hread
        have hlookup := lookup_of_field hvalue (by simp)
        have hraw := isJs_of_lookup hjs hlookup
        rw [IsJs] at hraw
        obtain ⟨fields, hfields, hselects, hsame⟩ := createDetails_selects hraw.1 hread
        obtain rfl := Option.some.inj hfields
        exact ⟨raw, hlookup, isJs_of_lookup hjs hlookup, hread, hselects, hsame⟩
    | undefined =>
        rw [hvalue, createDetails] at hread
        split_ifs at hread
        cases hread
    | _ => rw [hvalue] at hread; cases hread
  · rw [if_neg hown] at hread
    cases hread

/-- The details of a checked event pass the check again. -/
theorem details_again {event : AdministrativeEvent} (h : Checked event) {details : Fields}
    (hdetails : event.details = some details) :
    createDetails event.operation event.status (.obj details) = .ok (some details) := by
  obtain ⟨record, hjs, hmade⟩ := exists_record h
  obtain ⟨-, -, hreads⟩ := createAdministrativeEvent_eq_ok.mp hmade
  obtain ⟨raw, -, hraw, hread, -⟩ := read_details hjs hreads hdetails
  rw [IsJs] at hraw
  exact createDetails_again hraw.1 hread

/-- **The check of events** takes its own results, as they are. -/
theorem createAdministrativeEvent_again {event : AdministrativeEvent} (h : Checked event) :
    createAdministrativeEvent (.obj event.fields) = .ok event := by
  obtain ⟨record, hjs, hmade⟩ := exists_record h
  obtain ⟨-, hsequence, hreads⟩ := createAdministrativeEvent_eq_ok.mp hmade
  obtain ⟨source, target, -, hsourceJs, -, hsource, -⟩ := read_records hjs hreads
  rw [IsJs] at hsourceJs
  obtain ⟨h₁, h₂, h₃, h₄, h₅, h₆, h₇⟩ := event.lookup_fields
  refine createAdministrativeEvent_eq_ok.mpr ⟨event.assertFields_fields,
    ⟨field_of_lookup h₁, hsequence.2⟩, ?_⟩
  refine {
    source := by rw [field_of_lookup h₄]; exact createSource_again hsourceJs.1 hsource
    target := by rw [field_of_lookup h₅]; decide
    operation := field_of_lookup h₆
    status := field_of_lookup h₇
    attemptId := field_of_lookup h₂
    isAttemptId := hreads.isAttemptId
    occurredAt := field_of_lookup h₃
    isCanonical := hreads.isCanonical
    details := ?_ }
  rw [hasOwn, field, event.lookup_details]
  cases hdetails : event.details with
  | none => rfl
  | some details => exact details_again h hdetails

/-- The details of a checked event have different names and flat values of JavaScript. -/
theorem details_of_checked {event : AdministrativeEvent} (h : Checked event) {details : Fields}
    (hdetails : event.details = some details) : (details.map Prod.fst).Nodup ∧
      ∀ f ∈ details, IsUnits f.1 ∧ IsJs f.2 ∧ IsFlat f.2 := by
  obtain ⟨record, hjs, hmade⟩ := exists_record h
  obtain ⟨-, -, hreads⟩ := createAdministrativeEvent_eq_ok.mp hmade
  obtain ⟨raw, -, hraw, -, hselects, -⟩ := read_details hjs hreads hdetails
  refine ⟨hselects.1, fun f hf => ?_⟩
  obtain ⟨hlookup, hflat⟩ := hselects.2 f hf
  rw [IsJs] at hraw
  have hmem := (mem_iff_lookup hraw.1 f).mpr hlookup
  obtain ⟨hname, hvalue⟩ := fieldsAreJs_iff.mp hraw.2 f hmem
  exact ⟨hname, hvalue, hflat f.2 rfl⟩

theorem isUnits_names : ∀ name ∈ eventNames ++ ["kind", "actorId", "id", "machine", "atlas"],
    IsUnits name := isUnits_of_all (by decide)

/-- **A text can hold** every field of a checked event. -/
theorem isWritable_fields {event : AdministrativeEvent} (h : Checked event) :
    IsWritable (.obj event.fields) := by
  have hchecked := h
  obtain ⟨record, hjs, hmade⟩ := exists_record h
  obtain ⟨-, ⟨-, -, hlt⟩, hreads⟩ := createAdministrativeEvent_eq_ok.mp hmade
  obtain ⟨source, target, -, hsourceJs, hsource, -⟩ := read_records hjs hreads
  -- Every text of the event has been read.
  have hkind : IsUnits event.source.kind.text := by
    have hlookup : source.lookup "kind" = some (.str event.source.kind.text) := by
      rw [← hsource "kind"]
      simp [sourceFields]
    exact isJs_of_lookup hsourceJs hlookup
  have hactor : IsUnits event.source.actorId := by
    have hlookup : source.lookup "actorId" = some (.str event.source.actorId) := by
      rw [← hsource "actorId"]
      simp [sourceFields, List.lookup]
    exact isJs_of_lookup hsourceJs hlookup
  have hoperation : IsUnits event.operation.text :=
    isJs_of_lookup hjs (lookup_of_field hreads.operation (by simp))
  have hstatus : IsUnits event.status.text :=
    isJs_of_lookup hjs (lookup_of_field hreads.status (by simp))
  have hattempt : IsUnits event.attemptId :=
    isJs_of_lookup hjs (lookup_of_field hreads.attemptId (by simp))
  have htime : IsUnits event.occurredAt :=
    isJs_of_lookup hjs (lookup_of_field hreads.occurredAt (by simp))
  rw [IsWritable, fieldsAreWritable_iff]
  refine ⟨event.nodup_names_fields, ?_⟩
  rw [AdministrativeEvent.fields]
  simp only [List.forall_mem_append, List.forall_mem_cons, List.not_mem_nil, false_implies,
    implies_true, and_true]
  refine ⟨⟨⟨isUnits_names _ (by decide), ?_⟩, ⟨isUnits_names _ (by decide), hattempt⟩, ⟨isUnits_names _ (by decide), htime⟩,
    ⟨isUnits_names _ (by decide), ?_⟩, ⟨isUnits_names _ (by decide), ?_⟩, ⟨isUnits_names _ (by decide), hoperation⟩,
    isUnits_names _ (by decide), hstatus⟩, ?_⟩
  · refine ⟨Nat.cast_nonneg _, Rat.den_natCast _, ?_⟩
    exact_mod_cast hlt
  · exact ⟨nodup_sourceFields _, isUnits_names _ (by decide), hkind, isUnits_names _ (by decide), hactor, trivial⟩
  · exact ⟨nodup_targetFields, isUnits_names _ (by decide), isUnits_names _ (by decide), isUnits_names _ (by decide),
      isUnits_names _ (by decide), trivial⟩
  · intro f hf
    rw [List.mem_map] at hf
    obtain ⟨details, hdetails, rfl⟩ := hf
    obtain ⟨hnodup, hflat⟩ := details_of_checked hchecked (Option.mem_toList.mp hdetails)
    refine ⟨isUnits_names "details" (by decide), hnodup, fieldsAreWritable_iff.mpr fun f hf => ?_⟩
    obtain ⟨hunits, hvalue, hf⟩ := hflat f hf
    exact ⟨hunits, isWritable_of_isFlat hf hvalue⟩

/-! ## Events that are read again -/

/-- An event with more fields in its details. -/
def AdministrativeEvent.addDetails (event : AdministrativeEvent) (extra : Fields) :
    AdministrativeEvent :=
  { event with details := event.details.map (· ++ extra) }

theorem hasFieldOutside_eq_false {allowed : List String} {record : Fields} :
    hasFieldOutside allowed record = false ↔ ∀ name ∈ record.map Prod.fst, name ∈ allowed := by
  simp [hasFieldOutside]

theorem fields_allowed (event : AdministrativeEvent) :
    hasFieldOutside eventNames event.fields = false :=
  (assertFields_eq_ok.mp event.assertFields_fields).1

/-- Selected fields and the others make up the record. -/
theorem sameFields_append_others {record fields : Fields} (hnodup : (record.map Prod.fst).Nodup)
    (h : Selects record fields) :
    SameFields (fields ++ record.filter fun f => f.1 ∉ fields.map Prod.fst) record := by
  intro name
  rw [List.lookup_append]
  by_cases hname : name ∈ fields.map Prod.fst
  · obtain ⟨f, hf, rfl⟩ := List.mem_map.mp hname
    rw [lookup_of_mem h.1 hf, (h.2 f hf).1, Option.some_or]
  · have hnone : fields.lookup name = none := by
      rw [List.lookup_eq_none_iff]
      intro f hf
      rw [bne_iff_ne]
      intro heq
      exact hname (heq ▸ List.mem_map_of_mem hf)
    rw [hnone, Option.none_or]
    have hsub : ((record.filter fun f => f.1 ∉ fields.map Prod.fst).map Prod.fst).Nodup :=
      hnodup.sublist (List.filter_sublist.map Prod.fst)
    refine Option.ext fun value => ?_
    rw [← mem_iff_lookup hsub (name, value), ← mem_iff_lookup hnodup (name, value), List.mem_filter]
    simp only [hname, not_false_eq_true, decide_true, and_true]

/-- What a check has selected leaves no others if it has copied. -/
theorem others_eq_nil {record fields : Fields} (hnodup : (record.map Prod.fst).Nodup)
    (h : SameFields fields record) :
    record.filter (fun f => f.1 ∉ fields.map Prod.fst) = [] := by
  rw [List.filter_eq_nil_iff]
  intro f hf
  have hlookup := h f.1
  rw [lookup_of_mem hnodup hf] at hlookup
  obtain ⟨before, after, heq, -⟩ := List.lookup_eq_some_iff.mp hlookup
  rw [heq]
  simp

/-- **What has been read** is the event that comes of it.  Only the details may have had more
fields, where the check does not look at them. -/
theorem createAdministrativeEvent_sameJson {record : Fields} {event : AdministrativeEvent}
    (hjs : IsJs (.obj record)) (hdefined : record.lookup "details" ≠ some .undefined)
    (h : createAdministrativeEvent (.obj record) = .ok event) :
    ∃ extra, SameJson (.obj record) (.obj (event.addDetails extra).fields) ∧
      (extra ≠ [] → isLoose event.operation event.status = true ∧ event.details.isSome = true) := by
  obtain ⟨hnames, hsequence, hreads⟩ := createAdministrativeEvent_eq_ok.mp h
  obtain ⟨source, target, hsource, hsourceJs, hsameSource, -, htarget, htargetJs, hsameTarget, -⟩ :=
    read_records hjs hreads
  rw [IsJs] at hsourceJs htargetJs
  have hdetails : ∃ extra, (record.lookup "details").map sortJson =
      ((event.addDetails extra).details.map JsValue.obj).map sortJson ∧
      (extra ≠ [] → isLoose event.operation event.status = true ∧ event.details.isSome = true) := by
    cases hevent : event.details with
    | none =>
        refine ⟨[], ?_, fun hne => absurd rfl hne⟩
        have hread := hreads.details
        rw [hevent] at hread
        cases hlookup : record.lookup "details" with
        | none => simp [AdministrativeEvent.addDetails, hevent]
        | some value =>
            rw [hasOwn, field, hlookup, Option.isSome_some, if_pos rfl, Option.getD_some] at hread
            cases value with
            | undefined => exact absurd hlookup hdefined
            | obj raw =>
                obtain ⟨fields, hfields, -⟩ :=
                  createDetails_selects (isJs_of_lookup hjs hlookup).1 hread
                cases hfields
            | _ => cases hread
    | some details =>
        obtain ⟨raw, hlookup, hraw, -, hselects, hsame⟩ := read_details hjs hreads hevent
        rw [IsJs] at hraw
        refine ⟨raw.filter fun f => f.1 ∉ details.map Prod.fst, ?_, fun hne => ⟨?_, rfl⟩⟩
        · have hall := sameFields_append_others hraw.1 hselects
          have hnodup : ((details ++ raw.filter fun f => f.1 ∉ details.map Prod.fst).map
              Prod.fst).Nodup := by
            rw [List.map_append]
            refine List.Nodup.append hselects.1 (hraw.1.sublist (List.filter_sublist.map _)) ?_
            intro name hname hother
            obtain ⟨f, hf, rfl⟩ := List.mem_map.mp hother
            exact absurd hname (by simpa using (List.mem_filter.mp hf).2)
          have hjson := hall.sameJson hnodup hraw.1
          rw [SameJson] at hjson
          simp only [AdministrativeEvent.addDetails, hevent, hlookup, Option.map_some, hjson]
        · by_contra hstrict
          exact hne (others_eq_nil hraw.1 (hsame (by simpa using hstrict)))
  obtain ⟨extra, hextra, hloose⟩ := hdetails
  refine ⟨extra, ?_, hloose⟩
  rw [IsJs] at hjs
  refine sameJson_of_names hjs.1 (event.addDetails extra).nodup_names_fields
    (assertFields_eq_ok.mp hnames).1 (fields_allowed _) ?_
  obtain ⟨h₁, h₂, h₃, h₄, h₅, h₆, h₇⟩ := (event.addDetails extra).lookup_fields
  simp only [eventNames, inputNames, List.forall_mem_cons, List.not_mem_nil, false_implies,
    implies_true, and_true]
  refine ⟨?_, ?_, ?_, ?_, ?_, ?_, ?_, ?_⟩
  · rw [h₁, lookup_of_field hsequence.1 (by simp)]
    rfl
  · rw [h₂, lookup_of_field hreads.attemptId (by simp)]
    rfl
  · rw [h₃, lookup_of_field hreads.occurredAt (by simp)]
    rfl
  · rw [h₄, hsource]
    exact congrArg some (hsameSource.sameJson (nodup_sourceFields _) hsourceJs.1).symm
  · rw [h₅, htarget]
    exact congrArg some (hsameTarget.sameJson nodup_targetFields htargetJs.1).symm
  · rw [h₆, lookup_of_field hreads.operation (by simp)]
    rfl
  · rw [h₇, lookup_of_field hreads.status (by simp)]
    rfl
  · rw [hextra, (event.addDetails extra).lookup_details]

/-- A record that is the same as another one is a record. -/
theorem obj_of_sameJson {value : JsValue} {fields : Fields}
    (h : sortJson value = sortJson (.obj fields)) :
    ∃ record, value = .obj record ∧ SameJson (.obj record) (.obj fields) := by
  cases value with
  | obj record => exact ⟨record, rfl, h⟩
  | _ => simp [sortJson] at h

theorem record_of_lookup {a b : Fields} {name : String} {fields : Fields}
    (h : (a.lookup name).map sortJson = (b.lookup name).map sortJson)
    (hb : b.lookup name = some (.obj fields)) :
    ∃ record, a.lookup name = some (.obj record) ∧ SameJson (.obj record) (.obj fields) := by
  rw [hb, Option.map_some, Option.map_eq_some_iff] at h
  obtain ⟨value, hvalue, hsame⟩ := h
  obtain ⟨record, rfl, hrecord⟩ := obj_of_sameJson hsame
  exact ⟨record, hvalue, hrecord⟩

theorem flat_sourceFields (source : AdministrativeEventSource) :
    ∀ f ∈ sourceFields source, IsFlat f.2 := by
  simp [sourceFields, IsFlat, IsScalar]

theorem flat_targetFields : ∀ f ∈ targetFields, IsFlat f.2 := by
  simp [targetFields, IsFlat, IsScalar]

/-- The details of a record that is the same as an event with more details: they are checked
to be those of the event. -/
theorem createDetails_sameJson {event : AdministrativeEvent} (hevent : Checked event)
    {details extra raw : Fields} (hdetails : event.details = some details)
    (hraw : (raw.map Prod.fst).Nodup) (hsame : SameJson (.obj raw) (.obj (details ++ extra)))
    (hloose : extra ≠ [] → isLoose event.operation event.status = true) :
    ∃ made, createDetails event.operation event.status (.obj raw) = .ok (some made) ∧
      (made.map Prod.fst).Nodup ∧ SameFields made details := by
  obtain ⟨hnodup, hflat⟩ := details_of_checked hevent hdetails
  have hall : ((details ++ extra).map Prod.fst).Nodup :=
    (names_perm_of_sameJson hsame).nodup_iff.mp hraw
  have hlookup : ∀ f ∈ details, raw.lookup f.1 = some f.2 := by
    intro f hf
    refine lookup_eq_of_flat ((sameJson_obj hraw hall).mp hsame f.1) ?_ (hflat f hf).2.2
    rw [List.lookup_append, lookup_of_mem hnodup hf, Option.some_or]
  have hstrict : isLoose event.operation event.status = false → SameFields details raw := by
    intro hno name
    have hnil : extra = [] := by
      by_contra hne
      rw [hloose hne] at hno
      cases hno
    rw [hnil, List.append_nil] at hsame
    exact (sameFields_of_sameJson hraw hnodup (fun f hf => (hflat f hf).2.2) hsame name).symm
  obtain ⟨made, hmade, hfields, hwhich⟩ :=
    createDetails_accepts hnodup hraw (details_again hevent hdetails) hlookup hstrict
  refine ⟨made, hmade, ?_, hfields⟩
  cases hwhich with
  | inl heq => rw [heq]; exact hnodup
  | inr heq => rw [heq.2]; exact hraw

/-- **Whatever is the same** as a checked event is read as that event, and so it is with more
fields in the details where the check does not look at them. -/
theorem createAdministrativeEvent_accepts {event : AdministrativeEvent} (hevent : Checked event)
    {record extra : Fields} (hjs : IsJs (.obj record))
    (hsame : SameJson (.obj record) (.obj (event.addDetails extra).fields))
    (hloose : extra ≠ [] → isLoose event.operation event.status = true) :
    ∃ read, createAdministrativeEvent (.obj record) = .ok read ∧ read.sequence = event.sequence ∧
      SameJson (.obj read.fields) (.obj event.fields) := by
  obtain ⟨-, hsequence, hreads⟩ :=
    createAdministrativeEvent_eq_ok.mp (createAdministrativeEvent_again hevent)
  have hperm := names_perm_of_sameJson hsame
  have hlookup := (sameJson_obj hjs.1 (event.addDetails extra).nodup_names_fields).mp hsame
  obtain ⟨h₁, h₂, h₃, h₄, h₅, h₆, h₇⟩ := (event.addDetails extra).lookup_fields
  have hflat : IsFlat (.num event.sequence) := by
    refine ⟨Nat.cast_nonneg _, Rat.den_natCast _, ?_⟩
    exact_mod_cast hsequence.2.2
  obtain ⟨source, hsource, hsameSource⟩ := record_of_lookup (hlookup "source") h₄
  obtain ⟨target, htarget, hsameTarget⟩ := record_of_lookup (hlookup "target") h₅
  have hsourceJs := (isJs_of_lookup hjs hsource).1
  have htargetJs := (isJs_of_lookup hjs htarget).1
  have hsourceFields : SameFields source (sourceFields event.source) :=
    sameFields_of_sameJson hsourceJs (nodup_sourceFields _) (flat_sourceFields _) hsameSource
  have htargetFields : SameFields target targetFields :=
    sameFields_of_sameJson htargetJs nodup_targetFields flat_targetFields hsameTarget
  -- The details, where there are any.
  have hdetails : ∃ made, (if hasOwn record "details" then
      createDetails event.operation event.status (field record "details") else .ok none) = .ok made ∧
      (made.map JsValue.obj).map sortJson = (event.details.map JsValue.obj).map sortJson := by
    have hraw := hlookup "details"
    rw [(event.addDetails extra).lookup_details, AdministrativeEvent.addDetails] at hraw
    cases hevented : event.details with
    | none =>
        rw [hevented, Option.map_none, Option.map_none, Option.map_none, Option.map_eq_none_iff] at hraw
        exact ⟨none, by rw [hasOwn, hraw]; rfl, rfl⟩
    | some details =>
        rw [hevented, Option.map_some, Option.map_some, Option.map_some,
          Option.map_eq_some_iff] at hraw
        obtain ⟨value, hvalue, hsorted⟩ := hraw
        obtain ⟨raw, rfl, hrawSame⟩ := obj_of_sameJson hsorted
        have hrawJs := (isJs_of_lookup hjs hvalue).1
        obtain ⟨made, hmade, hmadeNodup, hmadeFields⟩ :=
          createDetails_sameJson hevent hevented hrawJs hrawSame hloose
        refine ⟨some made, ?_, ?_⟩
        · rw [hasOwn, field, hvalue, Option.isSome_some, if_pos rfl, Option.getD_some]
          exact hmade
        · exact congrArg some
            (hmadeFields.sameJson hmadeNodup (details_of_checked hevent hevented).1)
  obtain ⟨made, hmade, hmadeSame⟩ := hdetails
  refine ⟨{ event with details := made }, ?_, rfl, ?_⟩
  · refine createAdministrativeEvent_eq_ok.mpr ⟨?_, ?_, ?_⟩
    · obtain ⟨hallowed, hlength⟩ :=
        assertFields_eq_ok.mp (event.addDetails extra).assertFields_fields
      rw [hasFieldOutside_eq_false] at hallowed
      refine assertFields_eq_ok.mpr ⟨hasFieldOutside_eq_false.mpr fun name hname => ?_, ?_⟩
      · exact hallowed name (hperm.mem_iff.mp hname)
      · have hcount := hperm.length_eq
        rw [List.length_map, List.length_map] at hcount
        rw [hcount]
        exact hlength
    · exact ⟨field_of_lookup (lookup_eq_of_flat (hlookup _) h₁ hflat), hsequence.2⟩
    · refine {
        source := ?_
        target := ?_
        operation := field_of_lookup (lookup_eq_of_flat (hlookup _) h₆ trivial)
        status := field_of_lookup (lookup_eq_of_flat (hlookup _) h₇ trivial)
        attemptId := field_of_lookup (lookup_eq_of_flat (hlookup _) h₂ trivial)
        isAttemptId := hreads.isAttemptId
        occurredAt := field_of_lookup (lookup_eq_of_flat (hlookup _) h₃ trivial)
        isCanonical := hreads.isCanonical
        details := hmade }
      · have hread := hreads.source
        rw [field_of_lookup event.lookup_fields.2.2.2.1] at hread
        rw [field_of_lookup hsource, createSource_congr hsourceFields
          (perm_of_lookup hsourceJs (nodup_sourceFields _) hsourceFields).length_eq]
        exact hread
      · rw [field_of_lookup htarget, createTarget_congr htargetFields
          (perm_of_lookup htargetJs nodup_targetFields htargetFields).length_eq]
        decide
  · refine sameJson_of_names (AdministrativeEvent.nodup_names_fields _) event.nodup_names_fields
      (fields_allowed _) (fields_allowed _) ?_
    obtain ⟨g₁, g₂, g₃, g₄, g₅, g₆, g₇⟩ := ({ event with details := made } : AdministrativeEvent).lookup_fields
    obtain ⟨e₁, e₂, e₃, e₄, e₅, e₆, e₇⟩ := event.lookup_fields
    simp only [eventNames, inputNames, List.forall_mem_cons, List.not_mem_nil, false_implies,
      implies_true, and_true, g₁, g₂, g₃, g₄, g₅, g₆, g₇, e₁, e₂, e₃, e₄, e₅, e₆, e₇,
      AdministrativeEvent.lookup_details, hmadeSame]

end AtlasManager.EventHistory
