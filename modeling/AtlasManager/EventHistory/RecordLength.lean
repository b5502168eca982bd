import AtlasManager.EventHistory.VersionOneHistory

/-!
# AtlasManager.EventHistory.RecordLength

How long the line of a record is, beside the line of its event in a file of version one.

* `length_write_sortJson` -- sorting the fields of a value does not change the length of its text;
* `byteLength_le`, `length_le_byteLength` -- the bytes of a text by its code units;
* `short_of_stored` -- **the record** of an event that a file of version one can hold is not too long.
-/

namespace AtlasManager.EventHistory

open AtlasManager.Lib AtlasManager.Lib.Rfc8259 AtlasManager.Backup

/-! ## Lengths of texts that are written -/

/-- The units of a member of an object: its name in quotes, a colon and its value. -/
def memberLength (member : Text × Tree) : Nat := (quote member.1).length + 1 + member.2.write.length

/-- Items stand with a comma between two of them. -/
theorem length_writeItems (items : List Tree) :
    (writeItems items).length = (items.map fun item => item.write.length).sum + (items.length - 1) := by
  induction items with
  | nil => rfl
  | cons item rest ih =>
      cases rest with
      | nil => simp [writeItems]
      | cons next rest =>
          rw [writeItems, List.length_append, List.length_cons, ih]
          simp
          omega

/-- Members stand with a comma between two of them. -/
theorem length_writeMembers (members : List (Text × Tree)) :
    (writeMembers members).length = (members.map memberLength).sum + (members.length - 1) := by
  induction members with
  | nil => rfl
  | cons member rest ih =>
      obtain ⟨name, item⟩ := member
      cases rest with
      | nil =>
          simp [writeMembers, memberLength]
          omega
      | cons next rest =>
          rw [writeMembers, List.length_append, List.length_cons, List.length_append, List.length_cons, ih]
          simp [memberLength]
          omega

/-- The braces are two more. -/
theorem length_write_obj (members : List (Text × Tree)) :
    (Tree.obj members).write.length = (members.map memberLength).sum + (members.length - 1) + 2 := by
  rw [Tree.write, List.length_cons, List.length_append, length_writeMembers]
  rfl

/-- The brackets are two more. -/
theorem length_write_arr (items : List Tree) :
    (Tree.arr items).write.length =
      (items.map fun item => item.write.length).sum + (items.length - 1) + 2 := by
  rw [Tree.write, List.length_cons, List.length_append, length_writeItems]
  rfl

/-- The longest escape is `\u` with four digits. -/
theorem length_quoteUnit (c : CodeUnit) : (quoteUnit c).length ≤ 6 := by
  unfold quoteUnit
  split_ifs <;> simp [unicodeEscape]

/-- No unit takes more than the longest escape, a pair of surrogates takes less. -/
theorem length_quoteUnits (text : Text) : (quoteUnits text).length ≤ 6 * text.length := by
  induction text using quoteUnits.induct with
  | case1 => simp [quoteUnits]
  | case2 c hsurrogate =>
      rw [quoteUnits, if_pos hsurrogate]
      simp [unicodeEscape]
  | case3 c hplain =>
      rw [quoteUnits, if_neg hplain]
      simpa using length_quoteUnit c
  | case4 c d rest hleading htrailing ih =>
      rw [quoteUnits, if_pos hleading, if_pos htrailing]
      simp
      omega
  | case5 c d rest hleading htrailing ih =>
      rw [quoteUnits, if_pos hleading, if_neg htrailing]
      simp [unicodeEscape] at ih ⊢
      omega
  | case6 c d rest hleading htrailing ih =>
      rw [quoteUnits, if_neg hleading, if_pos htrailing]
      simp [unicodeEscape] at ih ⊢
      omega
  | case7 c d rest hleading htrailing ih =>
      have hone := length_quoteUnit c
      rw [quoteUnits, if_neg hleading, if_neg htrailing, List.length_append]
      simp at ih ⊢
      omega

/-- The quotes are two more. -/
theorem length_quote (text : Text) : (quote text).length ≤ 6 * text.length + 2 := by
  have hunits := length_quoteUnits text
  simp [quote]
  omega

/-- A string stands for as many units as it has characters. -/
theorem length_unitsOf (s : String) : (unitsOf s).length = s.length := by
  rw [unitsOf, List.length_map, String.length_toList]

/-! ## Sorted values -/

mutual

/-- **Sorting** does not change the length of a text. -/
theorem length_write_sortJson {value : JsValue} (h : IsWritable value) :
    (treeOf (sortJson value)).write.length = (treeOf value).write.length := by
  cases value with
  | arr items =>
      rw [IsWritable] at h
      rw [sortJson, treeOf, treeOf, length_write_arr, length_write_arr]
      have hitems := lengths_sortItems h
      have hcount := congrArg List.length hitems
      rw [List.length_map, List.length_map] at hcount
      rw [hitems, hcount]
  | obj fields =>
      have hsorted := isWritable_sortJson h
      rw [IsWritable] at h
      rw [sortJson, IsWritable] at hsorted
      rw [sortJson, treeOf, treeOf, length_write_obj, length_write_obj]
      have hperm : (fieldTrees (sortFields (sortValues fields))).Perm (fieldTrees (sortValues fields)) := by
        have hvalues := fieldsAreWritable_sortValues h.2
        rw [fieldTrees_eq hsorted.2, fieldTrees_eq hvalues]
        exact (perm_sortFields _).map _
      have hfields := lengths_sortValues h.2
      have hcount := congrArg List.length hfields
      rw [List.length_map, List.length_map] at hcount
      rw [(hperm.map memberLength).sum_nat, hperm.length_eq, hfields, hcount]
  | _ => rfl

/-- Item by item. -/
theorem lengths_sortItems {items : List JsValue} (h : AreWritable items) :
    (itemTrees (sortItems items)).map (fun item => item.write.length) =
      (itemTrees items).map fun item => item.write.length := by
  cases items with
  | nil => rfl
  | cons value rest =>
      rw [AreWritable] at h
      rw [sortItems, itemTrees, itemTrees, List.map_cons, List.map_cons, length_write_sortJson h.1,
        lengths_sortItems h.2]

/-- Field by field, before the fields themselves are put in order. -/
theorem lengths_sortValues {fields : List (String × JsValue)} (h : FieldsAreWritable fields) :
    (fieldTrees (sortValues fields)).map memberLength = (fieldTrees fields).map memberLength := by
  cases fields with
  | nil => rfl
  | cons f rest =>
      have hsorted := fieldsAreWritable_sortValues h
      have htrees := fieldTrees_eq h
      rw [FieldsAreWritable] at h
      rw [sortValues] at hsorted ⊢
      have hsortedTrees := fieldTrees_eq hsorted
      rw [FieldsAreWritable] at hsorted
      rw [hsortedTrees, htrees, List.map_cons, List.map_cons, List.map_cons, List.map_cons,
        ← fieldTrees_eq hsorted.2.2, ← fieldTrees_eq h.2.2, lengths_sortValues h.2.2, memberLength,
        memberLength, length_write_sortJson h.2.1]

end

/-! ## Bytes -/

/-- A unit takes at most three bytes, and a pair of surrogates takes four. -/
theorem byteLength_le (text : Text) : byteLength text ≤ 3 * text.length := by
  induction text using byteLength.induct with
  | case1 => simp [byteLength]
  | case2 c hlow => simp [byteLength, hlow]
  | case3 c hlow hmiddle => simp [byteLength, hlow, hmiddle]
  | case4 c hlow hmiddle => simp [byteLength, hlow, hmiddle]
  | case5 c d rest hlow ih =>
      rw [byteLength, if_pos hlow]
      simp only [List.length_cons] at ih ⊢
      omega
  | case6 c d rest hlow hmiddle ih =>
      rw [byteLength, if_neg hlow, if_pos hmiddle]
      simp only [List.length_cons] at ih ⊢
      omega
  | case7 c d rest hlow hmiddle hpair ih =>
      rw [byteLength, if_neg hlow, if_neg hmiddle, if_pos hpair]
      simp only [List.length_cons] at ih ⊢
      omega
  | case8 c d rest hlow hmiddle hpair ih =>
      rw [byteLength, if_neg hlow, if_neg hmiddle, if_neg hpair]
      simp only [List.length_cons] at ih ⊢
      omega

/-- A unit takes at least one byte. -/
theorem length_le_byteLength (text : Text) : text.length ≤ byteLength text := by
  induction text using byteLength.induct with
  | case1 => simp [byteLength]
  | case2 c hlow => simp [byteLength, hlow]
  | case3 c hlow hmiddle => simp [byteLength, hlow, hmiddle]
  | case4 c hlow hmiddle => simp [byteLength, hlow, hmiddle]
  | case5 c d rest hlow ih =>
      rw [byteLength, if_pos hlow]
      simp only [List.length_cons] at ih ⊢
      omega
  | case6 c d rest hlow hmiddle ih =>
      rw [byteLength, if_neg hlow, if_pos hmiddle]
      simp only [List.length_cons] at ih ⊢
      omega
  | case7 c d rest hlow hmiddle hpair ih =>
      rw [byteLength, if_neg hlow, if_neg hmiddle, if_pos hpair]
      simp only [List.length_cons] at ih ⊢
      omega
  | case8 c d rest hlow hmiddle hpair ih =>
      rw [byteLength, if_neg hlow, if_neg hmiddle, if_neg hpair]
      simp only [List.length_cons] at ih ⊢
      omega

/-! ## Records -/

/-- A digest is written with 64 digits. -/
theorem length_of_isSha256 {text : String} (h : isSha256 text = true) : text.length = 64 := by
  rw [isSha256, matchesClasses, Bool.and_eq_true, decide_eq_true_eq] at h
  rw [← String.length_toList, h.1, List.length_replicate]

variable {sha256 : Text → String}

/-- A member is not longer than the object it stands in. -/
theorem memberLength_le {member : Text × Tree} {members : List (Text × Tree)} (h : member ∈ members) :
    memberLength member ≤ (Tree.obj members).write.length := by
  have hle := List.le_sum_of_mem (List.mem_map_of_mem (f := memberLength) h)
  rw [length_write_obj]
  omega

/-- A field takes its name, its value and three more. -/
theorem length_field (name : String) (value : JsValue) :
    memberLength (unitsOf name, treeOf value) ≤ 6 * name.length + 3 + (treeOf value).write.length := by
  have hname := length_quote (unitsOf name)
  rw [length_unitsOf] at hname
  simp only [memberLength]
  omega

/-- Even if each digit of a digest were escaped. -/
theorem length_hash {text : String} (h : isSha256 text = true) :
    (treeOf (.str text)).write.length ≤ 386 := by
  have hquoted := length_quote (unitsOf text)
  rw [length_unitsOf, length_of_isSha256 h] at hquoted
  exact hquoted

/-- The text of an event is a part of its line, and its numeral is a part of this. -/
theorem lengths_eventLine {event : AdministrativeEvent} (h : Checked event) :
    (treeOf (.num event.sequence)).write.length ≤ (treeOf (.obj event.fields)).write.length ∧
      (treeOf (.obj event.fields)).write.length ≤ (VersionOne.eventLine event).length := by
  have hwritable := isWritable_fields h
  have hversion := VersionOne.isWritable_versionFields h
  rw [IsWritable] at hwritable hversion
  constructor
  · have hmember : (unitsOf "sequence", treeOf (.num event.sequence)) ∈ fieldTrees event.fields := by
      rw [fieldTrees_eq hwritable.2]
      exact List.mem_map_of_mem (f := fun f => (unitsOf f.1, treeOf f.2))
        (a := ("sequence", JsValue.num event.sequence)) (by simp [AdministrativeEvent.fields])
    have hle := memberLength_le hmember
    simp only [memberLength] at hle
    rw [treeOf.eq_def (.obj event.fields)]
    dsimp only
    omega
  · have htrees : fieldTrees (VersionOne.versionFields event) =
        (unitsOf "version", treeOf (.num 1)) :: fieldTrees event.fields := by
      rw [fieldTrees_eq hversion.2, fieldTrees_eq hwritable.2]
      rfl
    rw [VersionOne.eventLine, treeOf, treeOf, htrees, length_write_obj, length_write_obj, List.map_cons, List.sum_cons, List.length_cons]
    omega

/-- **The record of a stored event** is not too long, whatever hash it stands behind. -/
theorem short_of_stored {event : AdministrativeEvent} (hstored : VersionOne.Stored event)
    {record : EventHistoryRecord} (hvalid : record.Valid sha256) (hevent : record.event = event) :
    byteLength (serializeEventHistoryRecord record) ≤ eventHistoryMaxRecordBytes := by
  have hline : (VersionOne.eventLine event).length + 1 ≤ 8192 := by
    have hlength := length_le_byteLength (VersionOne.serializeEventLine event)
    rw [VersionOne.serializeEventLine, List.length_append, List.length_singleton] at hlength
    exact hlength.trans hstored.short
  obtain ⟨hnumber, hfields⟩ := lengths_eventLine hstored.checked
  have hsequence : (record.sequence : Rat) = event.sequence := by
    rw [← hvalid.sequence, hevent]
  have hwritable := hvalid.isWritable_fields.2
  have htrees : fieldTrees record.fields =
      [(unitsOf "schemaVersion", treeOf (.num 2)), (unitsOf "sequence", treeOf (.num event.sequence)),
        (unitsOf "event", treeOf (.obj event.fields)),
        (unitsOf "previousRecordSha256", treeOf (.str record.previousRecordSha256)),
        (unitsOf "recordSha256", treeOf (.str record.recordSha256))] := by
    rw [IsWritable] at hwritable
    rw [fieldTrees_eq hwritable.2, ← hsequence, ← hevent]
    rfl
  have hone := length_field "schemaVersion" (.num 2)
  have htwo := length_field "sequence" (.num event.sequence)
  have hthree := length_field "event" (.obj event.fields)
  have hfour := length_field "previousRecordSha256" (.str record.previousRecordSha256)
  have hfive := length_field "recordSha256" (.str record.recordSha256)
  have hversion : (treeOf (.num 2)).write.length = 1 := by decide
  have hprevious := length_hash hvalid.previousRecordSha256
  have hown := length_hash hvalid.recordSha256
  have hwritten : (canonicalJson (.obj record.fields)).length ≤ 17524 := by
    rw [canonicalJson, length_write_sortJson hwritable, treeOf, htrees, length_write_obj]
    simp only [List.map_cons, List.map_nil, List.sum_cons, List.sum_nil, List.length_cons,
      List.length_nil]
    simp only [show "schemaVersion".length = 13 from rfl, show "sequence".length = 8 from rfl,
      show "event".length = 5 from rfl, show "previousRecordSha256".length = 20 from rfl,
      show "recordSha256".length = 12 from rfl] at hone htwo hthree hfour hfive
    omega
  have hbytes := byteLength_le (serializeEventHistoryRecord record)
  rw [serializeEventHistoryRecord, List.length_append, List.length_singleton] at hbytes
  have hmax : eventHistoryMaxRecordBytes = 65536 := rfl
  rw [serializeEventHistoryRecord, hmax]
  omega

end AtlasManager.EventHistory
