import AtlasManager.Lib.Stringify
import AtlasManager.Lib.Js

/-!
# AtlasManager.Lib.JsonTrees

Values of unknown type as the trees that a text is written from, and values that were read as
values of unknown type.

A text of JavaScript is modelled by the string of its code units: half of a pair of surrogates
stands as a character of the last plane.

* `jsValue_value_treeOf` -- a writable value is what is read of its tree;
* `isJs_jsValue_value` -- what is read is a value of JavaScript;
* `visible_write` -- a text that is written has no control characters.
-/

namespace AtlasManager.Lib.Rfc8259

/-! ## Texts -/

/-- The character that stands for a code unit. -/
def charOf (c : CodeUnit) : Char :=
  if isLeadingSurrogate c || isTrailingSurrogate c then Char.ofNat (0x100000 + c.toNat)
  else Char.ofNat c.toNat

/-- The code units that the characters of a string stand for. -/
def unitsOf (s : String) : Text := s.toList.map unit

/-- The string that stands for a text. -/
def textOf (t : Text) : String := String.ofList (t.map charOf)

@[simp] theorem unit_charOf (c : CodeUnit) : unit (charOf c) = c := by
  have hlt : c.toNat < 65536 := c.toNat_lt
  refine UInt16.toNat_inj.mp ?_
  rw [unit, UInt16.toNat_ofNat', charOf]
  by_cases hsurrogate : (isLeadingSurrogate c || isTrailingSurrogate c) = true
  · simp only [isLeadingSurrogate, isTrailingSurrogate, Bool.or_eq_true, Bool.and_eq_true,
      decide_eq_true_eq, UInt16.le_iff_toNat_le] at hsurrogate
    have hvalid : (0x100000 + c.toNat).isValidChar := by
      right
      omega
    rw [if_pos (by simpa [isLeadingSurrogate, isTrailingSurrogate, UInt16.le_iff_toNat_le] using hsurrogate),
      Char.toNat_ofNat, if_pos hvalid]
    omega
  · rw [if_neg hsurrogate]
    simp only [isLeadingSurrogate, isTrailingSurrogate, Bool.or_eq_true, Bool.and_eq_true,
      decide_eq_true_eq, UInt16.le_iff_toNat_le] at hsurrogate
    have hvalid : c.toNat.isValidChar := by
      have hleading : (0xD800 : UInt16).toNat = 0xD800 := rfl
      have htrailing : (0xDFFF : UInt16).toNat = 0xDFFF := rfl
      have hlast : (0xDBFF : UInt16).toNat = 0xDBFF := rfl
      have hfirst : (0xDC00 : UInt16).toNat = 0xDC00 := rfl
      rw [Nat.isValidChar]
      omega
    rw [Char.toNat_ofNat, if_pos hvalid]
    omega

@[simp] theorem unitsOf_textOf (t : Text) : unitsOf (textOf t) = t := by
  have hcomp : unit ∘ charOf = id := funext unit_charOf
  rw [unitsOf, textOf, String.toList_ofList, List.map_map, hcomp, List.map_id]

theorem textOf_injective : Function.Injective textOf :=
  Function.LeftInverse.injective unitsOf_textOf

/-- The characters of a string stand for code units. -/
def IsUnits (s : String) : Prop := textOf (unitsOf s) = s

instance (s : String) : Decidable (IsUnits s) := inferInstanceAs (Decidable (_ = _))

theorem isUnits_textOf (t : Text) : IsUnits (textOf t) := by rw [IsUnits, unitsOf_textOf]

/-- Characters below the surrogates stand for themselves. -/
theorem isUnits_of_lt {s : String} (h : ∀ c ∈ s.toList, c.toNat < 0xD800) : IsUnits s := by
  have hmap : s.toList.map (charOf ∘ unit) = s.toList := by
    refine (List.map_congr_left fun c hc => ?_).trans (List.map_id _)
    have hlt := h c hc
    have hunit : (unit c).toNat = c.toNat := by
      rw [unit, UInt16.toNat_ofNat']
      omega
    have hplain : (isLeadingSurrogate (unit c) || isTrailingSurrogate (unit c)) = false := by
      have hleading : (0xD800 : UInt16).toNat = 0xD800 := rfl
      have htrailing : (0xDC00 : UInt16).toNat = 0xDC00 := rfl
      simp only [isLeadingSurrogate, isTrailingSurrogate, UInt16.le_iff_toNat_le, hunit,
        Bool.or_eq_false_iff, Bool.and_eq_false_iff, decide_eq_false_iff_not]
      omega
    rw [Function.comp_apply, charOf, hplain, hunit]
    exact Char.ofNat_toNat c
  rw [IsUnits, textOf, unitsOf, List.map_map, hmap, String.ofList_toList]

theorem isUnits_of_all {texts : List String}
    (h : (texts.all fun s => s.toList.all fun c => c.toNat < 0xD800) = true) :
    ∀ text ∈ texts, IsUnits text := by
  intro text htext
  have hall := List.all_eq_true.mp h text htext
  exact isUnits_of_lt fun c hc => of_decide_eq_true (List.all_eq_true.mp hall c hc)

/-! ## Values -/

mutual

/-- What `JSON.stringify` writes for a value: fields without a value are left out.  Of the
numbers, only the natural ones are written by the programs. -/
def treeOf : JsValue → Tree
  | .bool b => .bool b
  | .num q => .num (numeral q.num.toNat)
  | .str s => .str (unitsOf s)
  | .arr items => .arr (itemTrees items)
  | .obj fields => .obj (fieldTrees fields)
  | _ => .null

/-- The trees of the items of an array. -/
def itemTrees : List JsValue → List Tree
  | [] => []
  | value :: rest => treeOf value :: itemTrees rest

/-- The trees of the fields of a record that have a value. -/
def fieldTrees : List (String × JsValue) → List (Text × Tree)
  | [] => []
  | (name, value) :: rest =>
    if value = .undefined then fieldTrees rest else (unitsOf name, treeOf value) :: fieldTrees rest

end

mutual

/-- A value that was read. -/
def jsValue : Value → JsValue
  | .null => .null
  | .bool b => .bool b
  | .num (.finite negative magnitude) => .num (if negative then -magnitude else magnitude)
  -- `JSON.parse` reads a number beyond the doubles as an infinity, which no field may hold
  | .num (.infinite _) => .other
  | .str s => .str (textOf s)
  | .arr items => .arr (jsItems items)
  | .obj members => .obj (jsFields members)

/-- The items of an array that was read. -/
def jsItems : List Value → List JsValue
  | [] => []
  | value :: rest => jsValue value :: jsItems rest

/-- The fields of a record that was read, under the strings of their names. -/
def jsFields : List (Text × Value) → List (String × JsValue)
  | [] => []
  | (name, value) :: rest => (textOf name, jsValue value) :: jsFields rest

end

mutual

/-- The texts of a value are made of code units, and no record has two fields of one name. -/
def IsJs : JsValue → Prop
  | .str s => IsUnits s
  | .arr items => AreJs items
  | .obj fields => (fields.map Prod.fst).Nodup ∧ FieldsAreJs fields
  | _ => True

/-- All items of an array are values of JavaScript. -/
def AreJs : List JsValue → Prop
  | [] => True
  | value :: rest => IsJs value ∧ AreJs rest

/-- All fields of a record are values of JavaScript under names made of code units. -/
def FieldsAreJs : List (String × JsValue) → Prop
  | [] => True
  | (name, value) :: rest => IsUnits name ∧ IsJs value ∧ FieldsAreJs rest

end

mutual

/-- A value that a text can hold, with natural numbers. -/
def IsWritable : JsValue → Prop
  | .null => True
  | .bool _ => True
  | .num q => 0 ≤ q ∧ q.den = 1 ∧ q < 2 ^ 53
  | .str s => IsUnits s
  | .arr items => AreWritable items
  | .obj fields => (fields.map Prod.fst).Nodup ∧ FieldsAreWritable fields
  | _ => False

/-- A text can hold all items of an array. -/
def AreWritable : List JsValue → Prop
  | [] => True
  | value :: rest => IsWritable value ∧ AreWritable rest

/-- A text can hold all fields of a record. -/
def FieldsAreWritable : List (String × JsValue) → Prop
  | [] => True
  | (name, value) :: rest => IsUnits name ∧ IsWritable value ∧ FieldsAreWritable rest

end

/-- Field by field. -/
theorem fieldsAreJs_iff {fields : List (String × JsValue)} :
    FieldsAreJs fields ↔ ∀ f ∈ fields, IsUnits f.1 ∧ IsJs f.2 := by
  induction fields with
  | nil => simp [FieldsAreJs]
  | cons f fields ih => rw [FieldsAreJs, ih, List.forall_mem_cons, and_assoc]

/-- Field by field. -/
theorem fieldsAreWritable_iff {fields : List (String × JsValue)} :
    FieldsAreWritable fields ↔ ∀ f ∈ fields, IsUnits f.1 ∧ IsWritable f.2 := by
  induction fields with
  | nil => simp [FieldsAreWritable]
  | cons f fields ih => rw [FieldsAreWritable, ih, List.forall_mem_cons, and_assoc]

mutual

theorem isJs_of_isWritable {value : JsValue} (h : IsWritable value) : IsJs value := by
  cases value with
  | str s => exact h
  | arr items => exact areJs_of_areWritable h
  | obj fields =>
      rw [IsWritable] at h
      exact ⟨h.1, fieldsAreJs_of_fieldsAreWritable h.2⟩
  | _ => trivial

theorem areJs_of_areWritable {items : List JsValue} (h : AreWritable items) : AreJs items := by
  cases items with
  | nil => trivial
  | cons value rest =>
      rw [AreWritable] at h
      exact ⟨isJs_of_isWritable h.1, areJs_of_areWritable h.2⟩

theorem fieldsAreJs_of_fieldsAreWritable {fields : List (String × JsValue)}
    (h : FieldsAreWritable fields) : FieldsAreJs fields := by
  cases fields with
  | nil => trivial
  | cons f rest =>
      rw [FieldsAreWritable] at h
      exact ⟨h.1, isJs_of_isWritable h.2.1, fieldsAreJs_of_fieldsAreWritable h.2.2⟩

end

/-! ## Reading what was written -/

theorem fieldTrees_eq {fields : List (String × JsValue)} (h : FieldsAreWritable fields) :
    fieldTrees fields = fields.map fun f => (unitsOf f.1, treeOf f.2) := by
  induction fields with
  | nil => rfl
  | cons f fields ih =>
      rw [FieldsAreWritable] at h
      have hdefined : f.2 ≠ .undefined := by
        intro heq
        rw [heq] at h
        exact absurd h.2.1 (by simp [IsWritable])
      rw [fieldTrees, if_neg hdefined, ih h.2.2]
      rfl

theorem nodup_names_fieldTrees {fields : List (String × JsValue)} (h : FieldsAreWritable fields)
    (hnodup : (fields.map Prod.fst).Nodup) : ((fieldTrees fields).map Prod.fst).Nodup := by
  have hnames : (fieldTrees fields).map Prod.fst = (fields.map Prod.fst).map unitsOf := by
    rw [fieldTrees_eq h, List.map_map, List.map_map]
    rfl
  rw [hnames]
  refine hnodup.map_on fun s hs t ht heq => ?_
  obtain ⟨f, hf, rfl⟩ := List.mem_map.mp hs
  obtain ⟨g, hg, rfl⟩ := List.mem_map.mp ht
  have hunits := fieldsAreWritable_iff.mp h
  rw [← (hunits f hf).1, ← (hunits g hg).1, heq]

theorem value_fieldTrees {fields : List (String × JsValue)} (h : FieldsAreWritable fields)
    (hnodup : (fields.map Prod.fst).Nodup) :
    (Tree.obj (fieldTrees fields)).value =
      .obj (fields.map fun f => (unitsOf f.1, (treeOf f.2).value)) := by
  rw [Tree.value, memberValues_eq (nodup_names_fieldTrees h hnodup) (by simp), List.nil_append,
    fieldTrees_eq h, List.map_map]
  rfl

theorem nat_of_isWritable {q : Rat} (h : 0 ≤ q ∧ q.den = 1 ∧ q < 2 ^ 53) :
    (q.num.toNat : Rat) = q ∧ q.num.toNat < 2 ^ 53 := by
  obtain ⟨hpos, hden, hlt⟩ := h
  have hnum : 0 ≤ q.num := Rat.num_nonneg.mpr hpos
  have heq : (q.num.toNat : Rat) = q := by
    conv_rhs => rw [← Rat.coe_int_num_of_den_eq_one hden, ← Int.toNat_of_nonneg hnum]
    rfl
  refine ⟨heq, ?_⟩
  rw [← heq] at hlt
  exact_mod_cast hlt

mutual

/-- **A writable value** is what is read of its tree. -/
theorem jsValue_value_treeOf {value : JsValue} (h : IsWritable value) :
    jsValue (treeOf value).value = value := by
  cases value with
  | null => rfl
  | bool b => rfl
  | num q =>
      rw [IsWritable] at h
      obtain ⟨heq, hlt⟩ := nat_of_isWritable h
      rw [treeOf, Tree.value, toNumber_numeral hlt, jsValue, heq]
      rfl
  | str s =>
      rw [IsWritable, IsUnits] at h
      rw [treeOf, Tree.value, jsValue, h]
  | arr items =>
      rw [IsWritable] at h
      rw [treeOf, Tree.value, jsValue, jsItems_itemTrees h]
  | obj fields =>
      rw [IsWritable] at h
      rw [treeOf, value_fieldTrees h.2 h.1, jsValue, jsFields_map h.2]
  | _ => simp [IsWritable] at h

theorem jsItems_itemTrees {items : List JsValue} (h : AreWritable items) :
    jsItems (values (itemTrees items)) = items := by
  cases items with
  | nil => rfl
  | cons value rest =>
      rw [AreWritable] at h
      rw [itemTrees, values, jsItems, jsValue_value_treeOf h.1, jsItems_itemTrees h.2]

theorem jsFields_map {fields : List (String × JsValue)} (h : FieldsAreWritable fields) :
    jsFields (fields.map fun f => (unitsOf f.1, (treeOf f.2).value)) = fields := by
  cases fields with
  | nil => rfl
  | cons f rest =>
      rw [FieldsAreWritable, IsUnits] at h
      rw [List.map_cons, jsFields, jsFields_map h.2.2, h.1, jsValue_value_treeOf h.2.1]

end

mutual

theorem literalsValid_treeOf (value : JsValue) : (treeOf value).LiteralsValid := by
  cases value with
  | num q => exact isNumber_numeral _
  | arr items => exact itemLiteralsValid_itemTrees items
  | obj fields => exact memberLiteralsValid_fieldTrees fields
  | _ => trivial

theorem itemLiteralsValid_itemTrees (items : List JsValue) : ItemLiteralsValid (itemTrees items) := by
  cases items with
  | nil => trivial
  | cons value rest => exact ⟨literalsValid_treeOf value, itemLiteralsValid_itemTrees rest⟩

theorem memberLiteralsValid_fieldTrees (fields : List (String × JsValue)) :
    MemberLiteralsValid (fieldTrees fields) := by
  cases fields with
  | nil => trivial
  | cons f rest =>
      rw [fieldTrees]
      split_ifs
      · exact memberLiteralsValid_fieldTrees rest
      · exact ⟨literalsValid_treeOf f.2, memberLiteralsValid_fieldTrees rest⟩

end

mutual

/-- The strict decoder admits what is written of a writable value. -/
theorem admitted_treeOf {value : JsValue} (h : IsWritable value) :
    (treeOf value).NamesDistinct ∧ (treeOf value).NumbersFinite := by
  cases value with
  | num q =>
      rw [IsWritable] at h
      refine ⟨trivial, ?_⟩
      rw [treeOf, Tree.NumbersFinite, toNumber_numeral (nat_of_isWritable h).2]
      rfl
  | arr items =>
      rw [IsWritable] at h
      exact admitted_itemTrees h
  | obj fields =>
      rw [IsWritable] at h
      obtain ⟨hnames, hnumbers⟩ := admitted_fieldTrees h.2
      exact ⟨⟨nodup_names_fieldTrees h.2 h.1, hnames⟩, hnumbers⟩
  | _ => exact ⟨trivial, trivial⟩

theorem admitted_itemTrees {items : List JsValue} (h : AreWritable items) :
    ItemNamesDistinct (itemTrees items) ∧ ItemNumbersFinite (itemTrees items) := by
  cases items with
  | nil => exact ⟨trivial, trivial⟩
  | cons value rest =>
      rw [AreWritable] at h
      obtain ⟨hnames, hnumbers⟩ := admitted_treeOf h.1
      obtain ⟨hrestNames, hrestNumbers⟩ := admitted_itemTrees h.2
      exact ⟨⟨hnames, hrestNames⟩, hnumbers, hrestNumbers⟩

theorem admitted_fieldTrees {fields : List (String × JsValue)} (h : FieldsAreWritable fields) :
    MemberNamesDistinct (fieldTrees fields) ∧ MemberNumbersFinite (fieldTrees fields) := by
  cases fields with
  | nil => exact ⟨trivial, trivial⟩
  | cons f rest =>
      have htrees := fieldTrees_eq h
      rw [List.map_cons] at htrees
      rw [FieldsAreWritable] at h
      obtain ⟨hnames, hnumbers⟩ := admitted_treeOf h.2.1
      obtain ⟨hrestNames, hrestNumbers⟩ := admitted_fieldTrees h.2.2
      rw [htrees, ← fieldTrees_eq h.2.2]
      exact ⟨⟨hnames, hrestNames⟩, hnumbers, hrestNumbers⟩

end

/-! ## What is read -/

theorem jsFields_eq (members : List (Text × Value)) :
    jsFields members = members.map fun m => (textOf m.1, jsValue m.2) := by
  induction members with
  | nil => rfl
  | cons m members ih => rw [jsFields, ih, List.map_cons]

mutual

/-- What is read of a tree is a value of JavaScript. -/
theorem isJs_jsValue_value {tree : Tree} (h : tree.NamesDistinct) : IsJs (jsValue tree.value) := by
  cases tree with
  | null => trivial
  | bool b => trivial
  | num literal =>
      rw [Tree.value]
      cases toNumber literal <;> trivial
  | str s => exact isUnits_textOf s
  | arr items => exact areJs_values h
  | obj members =>
      rw [Tree.NamesDistinct] at h
      rw [Tree.value, memberValues_eq h.1 (by simp), List.nil_append, jsValue, IsJs]
      refine ⟨?_, fieldsAreJs_members h.2⟩
      rw [jsFields_eq, List.map_map, List.map_map]
      have hmap : members.map ((Prod.fst ∘ fun m : Text × Value => (textOf m.1, jsValue m.2)) ∘
          fun m => (m.1, m.2.value)) = (members.map Prod.fst).map textOf := by
        rw [List.map_map]
        rfl
      rw [hmap]
      exact h.1.map textOf_injective

theorem areJs_values {items : List Tree} (h : ItemNamesDistinct items) :
    AreJs (jsItems (values items)) := by
  cases items with
  | nil => trivial
  | cons item items =>
      rw [ItemNamesDistinct] at h
      exact ⟨isJs_jsValue_value h.1, areJs_values h.2⟩

theorem fieldsAreJs_members {members : List (Text × Tree)} (h : MemberNamesDistinct members) :
    FieldsAreJs (jsFields (members.map fun m => (m.1, m.2.value))) := by
  cases members with
  | nil => trivial
  | cons m members =>
      rw [MemberNamesDistinct] at h
      exact ⟨isUnits_textOf m.1, isJs_jsValue_value h.1, fieldsAreJs_members h.2⟩

end

/-! ## No control characters -/

/-- No code unit is a control character. -/
def Visible (t : Text) : Prop := ∀ c ∈ t, 0x20 ≤ c

theorem Visible.append {s t : Text} (hs : Visible s) (ht : Visible t) : Visible (s ++ t) := by
  intro c hc
  rw [List.mem_append] at hc
  cases hc with
  | inl hfront => exact hs c hfront
  | inr hback => exact ht c hback

theorem Visible.cons {c : CodeUnit} {t : Text} (hc : 0x20 ≤ c) (ht : Visible t) : Visible (c :: t) := by
  intro d hd
  cases List.mem_cons.mp hd with
  | inl heq => rw [heq]; exact hc
  | inr hrest => exact ht d hrest

theorem visible_nil : Visible [] := by simp [Visible]

theorem visible_digits {t : Text} (h : ∀ c ∈ t, isDigit c = true) : Visible t := by
  intro c hc
  have hdigit := h c hc
  rw [isDigit, Bool.and_eq_true, decide_eq_true_eq] at hdigit
  exact UInt16.le_trans (by decide) hdigit.1

theorem visible_hexUnit : ∀ n < 16, 0x20 ≤ hexUnit n := by decide

theorem visible_unicodeEscape (c : CodeUnit) : Visible (unicodeEscape c) := by
  have hc : c.toNat < 65536 := c.toNat_lt
  exact .cons (by decide) (.cons (by decide) (.cons (visible_hexUnit _ (by omega))
    (.cons (visible_hexUnit _ (by omega)) (.cons (visible_hexUnit _ (by omega))
      (.cons (visible_hexUnit _ (by omega)) visible_nil)))))

theorem visible_quoteUnit (c : CodeUnit) : Visible (quoteUnit c) := by
  unfold quoteUnit
  split_ifs with _ _ _ _ _ _ _ hcontrol
  · exact .cons (by decide) (.cons (by decide) visible_nil)
  · exact .cons (by decide) (.cons (by decide) visible_nil)
  · exact .cons (by decide) (.cons (by decide) visible_nil)
  · exact .cons (by decide) (.cons (by decide) visible_nil)
  · exact .cons (by decide) (.cons (by decide) visible_nil)
  · exact .cons (by decide) (.cons (by decide) visible_nil)
  · exact .cons (by decide) (.cons (by decide) visible_nil)
  · exact visible_unicodeEscape c
  · exact .cons (UInt16.not_lt.mp hcontrol) visible_nil

theorem visible_quoteUnits (s : Text) : Visible (quoteUnits s) := by
  fun_induction quoteUnits s with
  | case1 => exact visible_nil
  | case2 c _ => exact visible_unicodeEscape c
  | case3 c _ => exact visible_quoteUnit c
  | case4 c d rest hleading htrailing ih =>
      simp only [isLeadingSurrogate, isTrailingSurrogate, Bool.and_eq_true, decide_eq_true_eq] at *
      exact .cons (UInt16.le_trans (by decide) hleading.1)
        (.cons (UInt16.le_trans (by decide) htrailing.1) ih)
  | case5 c d rest _ _ ih => exact (visible_unicodeEscape c).append ih
  | case6 c d rest _ _ ih => exact (visible_unicodeEscape c).append ih
  | case7 c d rest _ _ ih => exact (visible_quoteUnit c).append ih

theorem visible_quote (s : Text) : Visible (quote s) :=
  .cons (by decide) ((visible_quoteUnits s).append (.cons (by decide) visible_nil))

theorem visible_number {t : Text} (h : IsNumber t) : Visible t := by
  have hint : ∀ {i : Text}, IsInt i → Visible i := by
    intro i hi
    cases hi with
    | zero => exact .cons (by decide) visible_nil
    | nonzero hd _ hds =>
        refine visible_digits fun c hc => ?_
        cases List.mem_cons.mp hc with
        | inl heq => rw [heq]; exact hd
        | inr hrest => exact hds c hrest
  have hfrac : ∀ {f : Text}, IsFrac f → Visible f := by
    intro f hf
    cases hf with
    | absent => exact visible_nil
    | present hds => exact .cons (by decide) (visible_digits hds.2)
  have hexp : ∀ {e : Text}, IsExp e → Visible e := by
    intro e he
    cases he with
    | absent => exact visible_nil
    | unsigned hmark hds =>
        refine .cons ?_ (visible_digits hds.2)
        cases hmark with
        | inl heq => rw [heq]; decide
        | inr heq => rw [heq]; decide
    | signed hmark hsign hds =>
        refine .cons ?_ (.cons ?_ (visible_digits hds.2))
        · cases hmark with
          | inl heq => rw [heq]; decide
          | inr heq => rw [heq]; decide
        · cases hsign with
          | inl heq => rw [heq]; decide
          | inr heq => rw [heq]; decide
  cases h with
  | positive hi hf he => exact (hint hi).append ((hfrac hf).append (hexp he))
  | negative hi hf he => exact .cons (by decide) ((hint hi).append ((hfrac hf).append (hexp he)))

mutual

/-- **A text that is written** has no control characters. -/
theorem visible_write (tree : Tree) (h : tree.LiteralsValid) : Visible tree.write := by
  cases tree with
  | null => simp [Tree.write, Visible, unit]
  | bool b => cases b <;> simp [Tree.write, Visible, unit]
  | num literal => exact visible_number h
  | str s => exact visible_quote s
  | arr items =>
      rw [Tree.write]
      exact .cons (by decide) ((visible_writeItems items h).append (.cons (by decide) visible_nil))
  | obj members =>
      rw [Tree.write]
      exact .cons (by decide) ((visible_writeMembers members h).append (.cons (by decide) visible_nil))
  termination_by sizeOf tree

theorem visible_writeItems (items : List Tree) (h : ItemLiteralsValid items) :
    Visible (writeItems items) := by
  match items with
  | [] => exact visible_nil
  | [item] =>
      rw [ItemLiteralsValid] at h
      exact visible_write item h.1
  | item :: next :: items =>
      rw [ItemLiteralsValid] at h
      rw [writeItems]
      exact (visible_write item h.1).append (.cons (by decide) (visible_writeItems (next :: items) h.2))
  termination_by sizeOf items

theorem visible_writeMembers (members : List (Text × Tree)) (h : MemberLiteralsValid members) :
    Visible (writeMembers members) := by
  match members with
  | [] => exact visible_nil
  | [(name, item)] =>
      rw [MemberLiteralsValid] at h
      rw [writeMembers]
      exact (visible_quote name).append (.cons (by decide) (visible_write item h.1))
  | (name, item) :: next :: members =>
      rw [MemberLiteralsValid] at h
      rw [writeMembers]
      exact (visible_quote name).append (.cons (by decide) ((visible_write item h.1).append
        (.cons (by decide) (visible_writeMembers (next :: members) h.2))))
  termination_by sizeOf members

end

end AtlasManager.Lib.Rfc8259
