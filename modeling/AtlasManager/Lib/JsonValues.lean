import AtlasManager.Lib.Json

/-!
# AtlasManager.Lib.JsonValues

The values of JavaScript that a JSON text can hold, and the text that is made of one.

* `isNatural_numeral`, `toJsValue_numeral` -- the numerals of natural numbers;
* `toJsValue_ofJsValue` -- a plain value is what its text stands for;
* `parseJs_stringify_ofJsValue` -- so it is what its text is parsed to.
-/

namespace AtlasManager.Lib.Json

/-! ## Numerals -/

/-- The numeral of a natural number. -/
def numeral (n : Nat) : List Char := pad (Nat.log 10 n + 1) n

theorem isDigit_digitChar : ∀ d < 10, isDigit (Nat.digitChar d) = true ∧
    (Nat.digitChar d = '0' → d = 0) := by
  decide

theorem isDigit_of_mem_pad {w n : Nat} {c : Char} (h : c ∈ pad w n) : isDigit c = true := by
  induction w generalizing n with
  | zero => simp [pad] at h
  | succ w ih =>
      rw [pad, List.mem_append, List.mem_singleton] at h
      cases h with
      | inl hfront => exact ih hfront
      | inr hlast => rw [hlast]; exact (isDigit_digitChar _ (by omega)).1

theorem head?_pad (w n : Nat) : (pad (w + 1) n).head? = some (Nat.digitChar (n / 10 ^ w % 10)) := by
  induction w generalizing n with
  | zero => simp [pad]
  | succ w ih => rw [pad, List.head?_append, ih, Nat.div_div_eq_div_mul, pow_succ']; rfl

/-- A numeral does not start with a zero it could leave out. -/
theorem isNatural_numeral (n : Nat) : IsNatural (numeral n) := by
  refine ⟨by simp [numeral, pad], fun c hc => isDigit_of_mem_pad hc, fun hlength => ?_⟩
  rw [numeral, head?_pad]
  rw [numeral, length_pad] at hlength
  intro hhead
  have hpos : 1 ≤ n / 10 ^ Nat.log 10 n := by
    rw [Nat.one_le_div_iff (by positivity)]
    refine Nat.pow_log_le_self 10 fun hn => ?_
    simp [hn] at hlength
  have hlt : n / 10 ^ Nat.log 10 n < 10 := by
    rw [Nat.div_lt_iff_lt_mul (by positivity), ← pow_succ']
    exact Nat.lt_pow_succ_log_self (by norm_num) n
  have hzero := (isDigit_digitChar _ (Nat.mod_lt _ (by norm_num))).2 (Option.some.inj hhead)
  omega

@[simp] theorem toJsValue_numeral (n : Nat) : toJsValue (.num (numeral n)) = .num n := by
  have hdigits : ∀ c ∈ numeral n, isDigit c = true := fun c hc => isDigit_of_mem_pad hc
  have hsign : (numeral n).head? ≠ some '-' := by
    intro hhead
    exact absurd (hdigits _ (List.mem_of_mem_head? hhead)) (by decide)
  have hread : readDigits 0 (numeral n) = some n :=
    readDigits_pad (Nat.lt_pow_succ_log_self (by norm_num) n)
  have hwhole : (numeral n).takeWhile isDigit = numeral n := List.takeWhile_eq_self_iff.mpr hdigits
  have hbehind : (numeral n).dropWhile isDigit = [] := List.dropWhile_eq_nil_iff.mpr hdigits
  simp [toJsValue, numberValue, hsign, hwhole, hbehind, hread, readDigits]

/-! ## Values that a text can hold -/

mutual

/-- What `JSON.stringify` makes of a value: fields without a value are left out.  Of the
numbers, only the natural ones are written by the programs. -/
def ofJsValue : JsValue → Json
  | .bool b => .bool b
  | .num q => .num (numeral q.num.toNat)
  | .str s => .str s
  | .arr items => .arr (ofJsItems items)
  | .obj fields => .obj (ofJsFields fields)
  | _ => .null

def ofJsItems : List JsValue → List Json
  | [] => []
  | value :: rest => ofJsValue value :: ofJsItems rest

def ofJsFields : List (String × JsValue) → List (String × Json)
  | [] => []
  | (name, value) :: rest =>
    if value = .undefined then ofJsFields rest else (name, ofJsValue value) :: ofJsFields rest

end

mutual

/-- A value that a text can hold: its numbers are natural, and no record has two fields of
one name. -/
def IsPlain : JsValue → Prop
  | .null => True
  | .bool _ => True
  | .num q => 0 ≤ q ∧ q.den = 1
  | .str _ => True
  | .arr items => ArePlain items
  | .obj fields => (fields.map Prod.fst).Nodup ∧ FieldsArePlain fields
  | _ => False

def ArePlain : List JsValue → Prop
  | [] => True
  | value :: rest => IsPlain value ∧ ArePlain rest

def FieldsArePlain : List (String × JsValue) → Prop
  | [] => True
  | (_, value) :: rest => IsPlain value ∧ FieldsArePlain rest

end

/-- A value without parts that a text can hold. -/
def IsScalar : JsValue → Prop
  | .null => True
  | .bool _ => True
  | .num q => 0 ≤ q ∧ q.den = 1 ∧ q < 2 ^ 53
  | .str _ => True
  | _ => False

/-- A value without parts, or an array of such values. -/
def IsFlat : JsValue → Prop
  | .arr items => ∀ item ∈ items, IsScalar item
  | value => IsScalar value

theorem hasOwn_eq_false {fields : List (String × JsValue)} {name : String}
    (h : name ∉ fields.map Prod.fst) : hasOwn fields name = false := by
  rw [hasOwn, Option.isSome_eq_false_iff, Option.isNone_iff_eq_none, List.lookup_eq_none_iff]
  intro f hf
  rw [bne_iff_ne]
  exact fun heq => h (heq ▸ List.mem_map_of_mem hf)

/-- New names go behind the others. -/
theorem toJsFields_append {made : List (String × JsValue)} {fields : List (String × Json)}
    (hnodup : (fields.map Prod.fst).Nodup)
    (hnew : ∀ name ∈ fields.map Prod.fst, name ∉ made.map Prod.fst) :
    toJsFields made fields = made ++ fields.map fun f => (f.1, toJsValue f.2) := by
  induction fields generalizing made with
  | nil => simp [toJsFields]
  | cons f fields ih =>
      obtain ⟨name, value⟩ := f
      rw [List.map_cons, List.nodup_cons] at hnodup
      have hname : hasOwn made name = false := hasOwn_eq_false (hnew name (by simp))
      rw [toJsFields, assign, hname, if_neg (by simp), ih hnodup.2]
      · simp
      · intro other hother
        have hne : other ≠ name := fun heq => hnodup.1 (heq ▸ hother)
        simpa [hne] using hnew other (List.mem_cons_of_mem _ hother)

theorem ne_undefined {value : JsValue} (h : IsPlain value) : value ≠ .undefined := by
  intro heq
  simp [heq, IsPlain] at h

theorem ofJsFields_eq {fields : List (String × JsValue)} (h : FieldsArePlain fields) :
    ofJsFields fields = fields.map fun f => (f.1, ofJsValue f.2) := by
  induction fields with
  | nil => rfl
  | cons f fields ih =>
      rw [FieldsArePlain] at h
      rw [ofJsFields, if_neg (ne_undefined h.1), ih h.2]
      rfl

mutual

/-- A plain value is what its text is parsed to. -/
theorem toJsValue_ofJsValue {value : JsValue} (h : IsPlain value) :
    toJsValue (ofJsValue value) = value := by
  cases value with
  | null => rfl
  | bool b => rfl
  | num q =>
      rw [IsPlain] at h
      rw [ofJsValue, toJsValue_numeral]
      have hnum : 0 ≤ q.num := Rat.num_nonneg.mpr h.1
      congr 1
      conv_rhs => rw [← Rat.coe_int_num_of_den_eq_one h.2, ← Int.toNat_of_nonneg hnum]
      rfl
  | str s => rfl
  | arr items =>
      rw [IsPlain] at h
      rw [ofJsValue, toJsValue, toJsItems_ofJsItems h]
  | obj fields =>
      rw [IsPlain] at h
      rw [ofJsValue, toJsValue, toJsFields_append, ofJsFields_eq h.2]
      · rw [List.nil_append, List.map_map]
        exact congrArg JsValue.obj (map_toJsValue_ofJsValue h.2)
      · rw [ofJsFields_eq h.2, List.map_map]
        exact h.1
      · simp
  | _ => simp [IsPlain] at h

theorem toJsItems_ofJsItems {items : List JsValue} (h : ArePlain items) :
    toJsItems (ofJsItems items) = items := by
  cases items with
  | nil => rfl
  | cons value rest =>
      rw [ArePlain] at h
      rw [ofJsItems, toJsItems, toJsValue_ofJsValue h.1, toJsItems_ofJsItems h.2]

theorem map_toJsValue_ofJsValue {fields : List (String × JsValue)} (h : FieldsArePlain fields) :
    fields.map ((fun f => (f.1, toJsValue f.2)) ∘ fun f => (f.1, ofJsValue f.2)) = fields := by
  cases fields with
  | nil => rfl
  | cons f rest =>
      rw [FieldsArePlain] at h
      rw [List.map_cons, map_toJsValue_ofJsValue h.2, Function.comp_apply, toJsValue_ofJsValue h.1]

end

mutual

theorem naturals_ofJsValue (value : JsValue) : (ofJsValue value).Naturals := by
  cases value with
  | num q => exact isNatural_numeral _
  | arr items => exact itemNaturals_ofJsItems items
  | obj fields => exact fieldNaturals_ofJsFields fields
  | _ => trivial

theorem itemNaturals_ofJsItems (items : List JsValue) : ItemNaturals (ofJsItems items) := by
  cases items with
  | nil => trivial
  | cons value rest => exact ⟨naturals_ofJsValue value, itemNaturals_ofJsItems rest⟩

theorem fieldNaturals_ofJsFields (fields : List (String × JsValue)) :
    FieldNaturals (ofJsFields fields) := by
  cases fields with
  | nil => trivial
  | cons f rest =>
      rw [ofJsFields]
      split_ifs
      · exact fieldNaturals_ofJsFields rest
      · exact ⟨naturals_ofJsValue f.2, fieldNaturals_ofJsFields rest⟩

end

/-- What is stringified of a plain value parses to it, with blanks behind it or not. -/
theorem parseJs_stringify_blanks {value : JsValue} (h : IsPlain value) {blanks : List Char}
    (hblanks : ∀ c ∈ blanks, isBlank c = true) :
    parseJs (stringify (ofJsValue value) ++ blanks) = some value := by
  rw [parseJs, stringify, parse_print escapes_stringifyChar (naturals_ofJsValue value) hblanks,
    Option.map_some, toJsValue_ofJsValue h]

theorem parseJs_stringify_ofJsValue {value : JsValue} (h : IsPlain value) :
    parseJs (stringify (ofJsValue value)) = some value := by
  have hparse := @parseJs_stringify_blanks value h [] (by simp)
  rwa [List.append_nil] at hparse

end AtlasManager.Lib.Json
