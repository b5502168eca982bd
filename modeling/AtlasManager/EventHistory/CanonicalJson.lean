import AtlasManager.Lib.JsonTrees
import AtlasManager.Lib.JsonValues
import AtlasManager.Lib.Utf
import AtlasManager.Config.StrictJson

/-!
# AtlasManager.EventHistory.CanonicalJson

The canonical text of a value, with the fields of every record in the order of their names.

* `SameJson` -- the same value, up to the order of fields;
* `sameJson_obj` -- records are the same iff their fields are;
* `parseStrictJson_canonicalJson` -- a canonical text is read as the sorted value.
-/

namespace AtlasManager.EventHistory

open AtlasManager.Lib AtlasManager.Lib.Rfc8259
open AtlasManager.Config (parseStrictJson)

/-! ## Sorting -/

/-- The place of a name in the order of code units.  The second summand only tells characters
apart that stand for no code unit. -/
def orderKey (name : String) : List Nat :=
  name.toList.map fun c => c.toNat % 0x10000 * 0x20 + c.toNat / 0x10000

theorem orderKey_injective : Function.Injective orderKey := by
  refine (List.map_injective_iff.mpr fun c d h => ?_).comp fun _ _ => String.toList_injective
  have hc := toNat_lt c
  have hd := toNat_lt d
  exact Char.toNat_inj.mp (by omega)

/-- `Object.keys(record).sort()`, with the values of the keys. -/
def sortFields (fields : List (String × JsValue)) : List (String × JsValue) :=
  fields.insertionSort fun f g => orderKey f.1 ≤ orderKey g.1

mutual

def sortJson : JsValue → JsValue
  | .arr items => .arr (sortItems items)
  | .obj fields => .obj (sortFields (sortValues fields))
  | value => value

def sortItems : List JsValue → List JsValue
  | [] => []
  | value :: rest => sortJson value :: sortItems rest

def sortValues : List (String × JsValue) → List (String × JsValue)
  | [] => []
  | (name, value) :: rest => (name, sortJson value) :: sortValues rest

end

def canonicalJson (value : JsValue) : Text := (treeOf (sortJson value)).write

/-- The same value, up to the order of the fields of its records. -/
def SameJson (a b : JsValue) : Prop := sortJson a = sortJson b

instance (a b : JsValue) : Decidable (SameJson a b) := inferInstanceAs (Decidable (_ = _))

theorem sortItems_eq (items : List JsValue) : sortItems items = items.map sortJson := by
  induction items with
  | nil => rfl
  | cons value rest ih => rw [sortItems, ih, List.map_cons]

theorem sortValues_eq (fields : List (String × JsValue)) :
    sortValues fields = fields.map fun f => (f.1, sortJson f.2) := by
  induction fields with
  | nil => rfl
  | cons f rest ih => rw [sortValues, ih, List.map_cons]

theorem names_sortValues (fields : List (String × JsValue)) :
    (sortValues fields).map Prod.fst = fields.map Prod.fst := by
  rw [sortValues_eq, List.map_map]
  rfl

theorem perm_sortFields (fields : List (String × JsValue)) : (sortFields fields).Perm fields :=
  List.perm_insertionSort _ fields

theorem names_sortFields (fields : List (String × JsValue)) :
    ((sortFields (sortValues fields)).map Prod.fst).Perm (fields.map Prod.fst) := by
  rw [← names_sortValues fields]
  exact (perm_sortFields _).map Prod.fst

theorem pairwise_sortFields (fields : List (String × JsValue)) :
    (sortFields fields).Pairwise fun f g => orderKey f.1 ≤ orderKey g.1 := by
  have htotal : Std.Total fun f g : String × JsValue => orderKey f.1 ≤ orderKey g.1 :=
    ⟨fun f g => le_total (orderKey f.1) (orderKey g.1)⟩
  have htrans : IsTrans (String × JsValue) fun f g => orderKey f.1 ≤ orderKey g.1 :=
    ⟨fun _ _ _ hfg hgh => le_trans hfg hgh⟩
  exact List.pairwise_insertionSort _ fields

/-- The order of the fields does not matter to the sort. -/
theorem sortFields_eq_of_perm {a b : List (String × JsValue)} (hnodup : (a.map Prod.fst).Nodup)
    (h : a.Perm b) : sortFields a = sortFields b := by
  have hperm : (sortFields a).Perm (sortFields b) :=
    ((perm_sortFields a).trans h).trans (perm_sortFields b).symm
  refine hperm.eq_of_pairwise (fun f g hf hg hfg hgf => ?_) (pairwise_sortFields a)
    (pairwise_sortFields b)
  have hname : f.1 = g.1 := orderKey_injective (le_antisymm hfg hgf)
  have hfa : f ∈ a := (perm_sortFields a).subset hf
  have hga : g ∈ a := h.symm.subset ((perm_sortFields b).subset hg)
  exact List.inj_on_of_nodup_map hnodup hfa hga hname

/-! ## The fields of sorted records -/

theorem lookup_sortValues (fields : List (String × JsValue)) (name : String) :
    (sortValues fields).lookup name = (fields.lookup name).map sortJson := by
  induction fields with
  | nil => rfl
  | cons f rest ih =>
      obtain ⟨other, value⟩ := f
      rw [sortValues, List.lookup_cons, List.lookup_cons]
      cases name == other with
      | true => rfl
      | false => exact ih

theorem lookup_sortFields {fields : List (String × JsValue)} (hnodup : (fields.map Prod.fst).Nodup)
    (name : String) :
    (sortFields (sortValues fields)).lookup name = (fields.lookup name).map sortJson := by
  rw [← lookup_sortValues]
  refine lookup_eq_of_perm ?_ (perm_sortFields _) name
  exact (names_sortFields fields).nodup_iff.mpr hnodup

theorem names_perm_of_sameJson {a b : List (String × JsValue)} (h : SameJson (.obj a) (.obj b)) :
    (a.map Prod.fst).Perm (b.map Prod.fst) := by
  rw [SameJson, sortJson, sortJson, JsValue.obj.injEq] at h
  have hnames := names_sortFields a
  rw [h] at hnames
  exact hnames.symm.trans (names_sortFields b)

/-- **Records are the same** iff their fields are. -/
theorem sameJson_obj {a b : List (String × JsValue)} (ha : (a.map Prod.fst).Nodup)
    (hb : (b.map Prod.fst).Nodup) :
    SameJson (.obj a) (.obj b) ↔
      ∀ name, (a.lookup name).map sortJson = (b.lookup name).map sortJson := by
  rw [SameJson, sortJson, sortJson, JsValue.obj.injEq]
  constructor
  · intro h name
    rw [← lookup_sortFields ha, ← lookup_sortFields hb, h]
  · intro h
    rw [← names_sortValues] at ha hb
    refine sortFields_eq_of_perm ha (perm_of_lookup ha hb fun name => ?_)
    rw [lookup_sortValues, lookup_sortValues, h]

/-! ## Flat values -/

open Json (IsScalar IsFlat)

theorem sortJson_of_isScalar {value : JsValue} (h : IsScalar value) : sortJson value = value := by
  cases value with
  | arr items => exact h.elim
  | obj fields => exact h.elim
  | _ => rfl

theorem sortItems_of_scalars {items : List JsValue} (h : ∀ item ∈ items, IsScalar item) :
    sortItems items = items := by
  rw [sortItems_eq]
  exact (List.map_congr_left fun item hitem => sortJson_of_isScalar (h item hitem)).trans
    (List.map_id' items)

/-- There is nothing to sort in a flat value. -/
theorem sortJson_of_isFlat {value : JsValue} (h : IsFlat value) : sortJson value = value := by
  cases value with
  | arr items => rw [sortJson, sortItems_of_scalars h]
  | obj fields => exact h.elim
  | _ => rfl

theorem eq_of_sortJson_isScalar {value sorted : JsValue} (h : IsScalar sorted)
    (heq : sortJson value = sorted) : value = sorted := by
  cases value with
  | arr items => rw [← heq, sortJson] at h; exact h.elim
  | obj fields => rw [← heq, sortJson] at h; exact h.elim
  | _ => exact heq

/-- What is flat when it is sorted was so before. -/
theorem eq_of_sortJson_isFlat {value sorted : JsValue} (h : IsFlat sorted)
    (heq : sortJson value = sorted) : value = sorted := by
  cases value with
  | arr items =>
      rw [sortJson, sortItems_eq] at heq
      subst heq
      have hitems : ∀ item ∈ items, sortJson item = item := by
        intro item hitem
        have hscalar : IsScalar (sortJson item) := h _ (List.mem_map_of_mem hitem)
        exact (eq_of_sortJson_isScalar hscalar rfl).symm
      rw [(List.map_congr_left hitems).trans (List.map_id' items)]
  | obj fields => rw [← heq, sortJson] at h; exact h.elim
  | _ => exact heq

theorem isWritable_of_isScalar {value : JsValue} (h : IsScalar value) (hjs : IsJs value) :
    IsWritable value := by
  cases value with
  | arr items => exact h.elim
  | obj fields => exact h.elim
  | undefined => exact h.elim
  | other => exact h.elim
  | null => trivial
  | bool b => trivial
  | num q => exact h
  | str s => exact hjs

theorem isWritable_of_isFlat {value : JsValue} (h : IsFlat value) (hjs : IsJs value) :
    IsWritable value := by
  cases value with
  | arr items =>
      rw [IsJs] at hjs
      rw [IsWritable]
      induction items with
      | nil => trivial
      | cons item items ih =>
          rw [AreJs] at hjs
          rw [AreWritable]
          exact ⟨isWritable_of_isScalar (h item List.mem_cons_self) hjs.1,
            ih (fun next hnext => h next (List.mem_cons_of_mem _ hnext)) hjs.2⟩
  | _ => exact isWritable_of_isScalar h hjs

/-! ## Reading a canonical text -/

mutual

theorem isWritable_sortJson {value : JsValue} (h : IsWritable value) : IsWritable (sortJson value) := by
  cases value with
  | arr items => exact areWritable_sortItems h
  | obj fields =>
      rw [IsWritable] at h
      have hvalues := fieldsAreWritable_sortValues h.2
      refine ⟨(names_sortFields fields).nodup_iff.mpr h.1, ?_⟩
      rw [fieldsAreWritable_iff] at hvalues ⊢
      exact fun f hf => hvalues f ((perm_sortFields _).subset hf)
  | _ => exact h

theorem areWritable_sortItems {items : List JsValue} (h : AreWritable items) :
    AreWritable (sortItems items) := by
  cases items with
  | nil => trivial
  | cons value rest =>
      rw [AreWritable] at h
      exact ⟨isWritable_sortJson h.1, areWritable_sortItems h.2⟩

theorem fieldsAreWritable_sortValues {fields : List (String × JsValue)} (h : FieldsAreWritable fields) :
    FieldsAreWritable (sortValues fields) := by
  cases fields with
  | nil => trivial
  | cons f rest =>
      rw [FieldsAreWritable] at h
      exact ⟨h.1, isWritable_sortJson h.2.1, fieldsAreWritable_sortValues h.2.2⟩

end

mutual

/-- What is sorted stays as it is. -/
theorem sortJson_sortJson {value : JsValue} (h : IsWritable value) :
    SameJson (sortJson value) value := by
  cases value with
  | arr items =>
      rw [IsWritable] at h
      rw [SameJson, sortJson, sortJson, sortItems_sortItems h]
  | obj fields =>
      rw [IsWritable] at h
      have hnodup := (names_sortFields fields).nodup_iff.mpr h.1
      rw [sortJson, sameJson_obj hnodup h.1]
      intro name
      rw [lookup_sortFields h.1, ← lookup_sortValues, ← lookup_sortValues,
        sortValues_sortValues h.2]
  | _ => rfl

theorem sortItems_sortItems {items : List JsValue} (h : AreWritable items) :
    sortItems (sortItems items) = sortItems items := by
  cases items with
  | nil => rfl
  | cons value rest =>
      rw [AreWritable] at h
      rw [sortItems, sortItems, sortItems_sortItems h.2, sortJson_sortJson h.1]

theorem sortValues_sortValues {fields : List (String × JsValue)} (h : FieldsAreWritable fields) :
    sortValues (sortValues fields) = sortValues fields := by
  cases fields with
  | nil => rfl
  | cons f rest =>
      rw [FieldsAreWritable] at h
      rw [sortValues, sortValues, sortValues_sortValues h.2.2, sortJson_sortJson h.2.1]

end

/-- What is written of a value is read as that value. -/
theorem parseStrictJson_write {value : JsValue} (h : IsWritable value) :
    ∃ read, parseStrictJson (treeOf value).write = .ok read ∧ jsValue read = value := by
  have htext := @isJsonText_write _ (literalsValid_treeOf value) [] .nil
  rw [List.append_nil] at htext
  exact ⟨(treeOf value).value,
    Config.parse_eq_ok.mpr ⟨treeOf value, htext, fun _ => admitted_treeOf h, rfl⟩,
    jsValue_value_treeOf h⟩

/-- **A canonical text** is read as the sorted value. -/
theorem parseStrictJson_canonicalJson {value : JsValue} (h : IsWritable value) :
    ∃ read, parseStrictJson (canonicalJson value) = .ok read ∧ jsValue read = sortJson value :=
  parseStrictJson_write (isWritable_sortJson h)

/-- Values with the same canonical text are the same. -/
theorem sameJson_of_canonicalJson {a b : JsValue} (ha : IsWritable a) (hb : IsWritable b)
    (h : canonicalJson a = canonicalJson b) : SameJson a b := by
  obtain ⟨read, hread, ha⟩ := parseStrictJson_canonicalJson ha
  obtain ⟨read', hread', hb⟩ := parseStrictJson_canonicalJson hb
  rw [h, hread'] at hread
  rw [SameJson, ← ha, ← hb, Except.ok.inj hread]

theorem visible_canonicalJson (value : JsValue) : Visible (canonicalJson value) :=
  visible_write _ (literalsValid_treeOf _)

/-- What the strict decoder reads is a value of JavaScript. -/
theorem isJs_of_parseStrictJson {text : Text} {read : Value} (h : parseStrictJson text = .ok read) :
    IsJs (jsValue read) := by
  obtain ⟨tree, -, hadmitted, rfl⟩ := Config.parse_eq_ok.mp h
  exact isJs_jsValue_value (hadmitted rfl).1

end AtlasManager.EventHistory
