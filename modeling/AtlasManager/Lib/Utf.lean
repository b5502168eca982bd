import Mathlib

/-!
# AtlasManager.Lib.Utf

The encodings of texts in bytes and in code units, and their orders.

* `utf8_lt_utf8` -- the order of the bytes is the order of the characters;
* `utf16_lt_utf16` -- so is the order of the code units, except where two texts
  first differ in a character behind the surrogates and one beyond 16 bits.
-/

namespace AtlasManager.Lib

/-- The bytes of a text. -/
def utf8 (text : List Char) : List UInt8 := text.flatMap String.utf8EncodeChar

/-- The code units of a character: one, or a pair of surrogates. -/
def utf16Char (c : Char) : List UInt16 :=
  if c.toNat < 0x10000 then [.ofNat c.toNat]
  else [.ofNat (0xD800 + (c.toNat - 0x10000) / 0x400), .ofNat (0xDC00 + (c.toNat - 0x10000) % 0x400)]

/-- The code units of a text. -/
def utf16 (text : List Char) : List UInt16 := text.flatMap utf16Char

/-- Where two texts first differ, the first one has a character behind the surrogates, and
the other one a character that takes a pair of them. -/
def OrdersDiffer : List Char → List Char → Prop
  | c :: s, d :: t =>
    if c = d then OrdersDiffer s t else 0xE000 ≤ c.toNat ∧ c.toNat < 0x10000 ∧ 0x10000 ≤ d.toNat
  | _, _ => False

/-! ## Where lists first differ -/

section Before

variable {β : Type} [LT β]

/-- Two lists differ somewhere, and at first the one is smaller. -/
inductive Before : List β → List β → Prop
  | here {x y : β} {s t : List β} : x < y → Before (x :: s) (y :: t)
  | behind {x y : β} {s t : List β} : x = y → Before s t → Before (x :: s) (y :: t)

theorem Before.append_lt {l m : List β} (h : Before l m) (u v : List β) : l ++ u < m ++ v := by
  induction h with
  | here hlt => exact List.cons_lt_cons_iff.mpr (.inl hlt)
  | behind heq _ ih => exact List.cons_lt_cons_iff.mpr (.inr ⟨heq, ih⟩)

theorem append_lt_append_left_iff [Std.Irrefl (fun x y : β => x < y)] (p : List β) {u v : List β} :
    p ++ u < p ++ v ↔ u < v := by
  induction p with
  | nil => rfl
  | cons x p ih => rw [List.cons_append, List.cons_append, List.cons_lt_cons_self, ih]

/-- An encoding of single characters that can be told apart keeps the order. -/
theorem flatMap_lt_flatMap [Std.Irrefl (fun x y : β => x < y)] {enc : Char → List β} (hne : ∀ c, enc c ≠ [])
    (henc : ∀ c d : Char, c < d → Before (enc c) (enc d)) {s t : List Char} (h : s < t) :
    s.flatMap enc < t.flatMap enc := by
  induction s generalizing t with
  | nil =>
      cases t with
      | nil => simp at h
      | cons d t =>
          obtain ⟨x, xs, hx⟩ := List.exists_cons_of_ne_nil (hne d)
          rw [List.flatMap_cons, hx]
          exact List.nil_lt_cons _ _
  | cons c s ih =>
      cases t with
      | nil => simp at h
      | cons d t =>
          rw [List.flatMap_cons, List.flatMap_cons]
          rcases List.cons_lt_cons_iff.mp h with hlt | ⟨rfl, hlt⟩
          · exact (henc c d hlt).append_lt _ _
          · rw [append_lt_append_left_iff]
            exact ih hlt

end Before

/-! ## Bytes -/

private theorem byte_lt {a b : Nat} (h : a < b) (hb : b < 256) : UInt8.ofNat a < UInt8.ofNat b := by
  rw [UInt8.lt_iff_toNat_lt, UInt8.toNat_ofNat', UInt8.toNat_ofNat']
  omega

private theorem lt_iff_toNat_lt {c d : Char} : c < d ↔ c.toNat < d.toNat := Iff.rfl

theorem utf8EncodeChar_ne_nil (c : Char) : String.utf8EncodeChar c ≠ [] := by
  unfold String.utf8EncodeChar
  dsimp only
  split_ifs <;> simp

theorem before_utf8EncodeChar {c d : Char} (h : c < d) :
    Before (String.utf8EncodeChar c) (String.utf8EncodeChar d) := by
  rw [lt_iff_toNat_lt] at h
  have hlast : d.toNat < 0x110000 := by
    rcases d.valid with hd | hd
    · exact lt_trans hd (by norm_num)
    · exact hd.2
  unfold String.utf8EncodeChar
  change c.val.toNat < d.val.toNat at h
  change d.val.toNat < 0x110000 at hlast
  generalize c.val.toNat = v at h
  generalize d.val.toNat = w at h hlast
  dsimp only
  by_cases h1 : v ≤ 0x7f
  · rw [if_pos h1]
    split_ifs
    · exact .here (byte_lt (by omega) (by omega))
    · exact .here (byte_lt (by omega) (by omega))
    · exact .here (byte_lt (by omega) (by omega))
    · exact .here (byte_lt (by omega) (by omega))
  rw [if_neg h1, if_neg (show ¬ w ≤ 0x7f by omega)]
  by_cases h2 : v ≤ 0x7ff
  · rw [if_pos h2]
    split_ifs
    · by_cases hfirst : v / 64 < w / 64
      · exact .here (byte_lt (by omega) (by omega))
      · refine .behind (by rw [show v / 64 = w / 64 by omega]) (.here (byte_lt (by omega) (by omega)))
    · exact .here (byte_lt (by omega) (by omega))
    · exact .here (byte_lt (by omega) (by omega))
  rw [if_neg h2, if_neg (show ¬ w ≤ 0x7ff by omega)]
  by_cases h3 : v ≤ 0xffff
  · rw [if_pos h3]
    split_ifs
    · by_cases hfirst : v / 4096 < w / 4096
      · exact .here (byte_lt (by omega) (by omega))
      · refine .behind (by rw [show v / 4096 = w / 4096 by omega]) ?_
        by_cases hsecond : v / 64 < w / 64
        · exact .here (byte_lt (by omega) (by omega))
        · exact .behind (by rw [show v / 64 = w / 64 by omega])
            (.here (byte_lt (by omega) (by omega)))
    · exact .here (byte_lt (by omega) (by omega))
  rw [if_neg h3, if_neg (show ¬ w ≤ 0xffff by omega)]
  by_cases hfirst : v / 262144 < w / 262144
  · exact .here (byte_lt (by omega) (by omega))
  · refine .behind (by rw [show v / 262144 = w / 262144 by omega]) ?_
    by_cases hsecond : v / 4096 < w / 4096
    · exact .here (byte_lt (by omega) (by omega))
    · refine .behind (by rw [show v / 4096 = w / 4096 by omega]) ?_
      by_cases hthird : v / 64 < w / 64
      · exact .here (byte_lt (by omega) (by omega))
      · exact .behind (by rw [show v / 64 = w / 64 by omega])
          (.here (byte_lt (by omega) (by omega)))

/-- **Bytes** are ordered as the characters are. -/
theorem utf8_lt_utf8 {s t : List Char} : utf8 s < utf8 t ↔ s < t := by
  have hlt : ∀ {s t : List Char}, s < t → utf8 s < utf8 t :=
    flatMap_lt_flatMap utf8EncodeChar_ne_nil fun _ _ => before_utf8EncodeChar
  constructor
  · intro h
    rcases lt_trichotomy s t with hst | rfl | hts
    · exact hst
    · exact absurd h (List.lt_irrefl _)
    · exact absurd h (List.lt_asymm (hlt hts))
  · exact hlt

/-! ## Code units -/

private theorem codeUnit_lt {a b : Nat} (h : a < b) (hb : b < 65536) :
    UInt16.ofNat a < UInt16.ofNat b := by
  rw [UInt16.lt_iff_toNat_lt, UInt16.toNat_ofNat', UInt16.toNat_ofNat']
  omega

theorem toNat_lt (c : Char) : c.toNat < 0x110000 := by
  rcases c.valid with hc | hc
  · exact lt_trans hc (by norm_num)
  · exact hc.2

theorem not_surrogate (c : Char) : c.toNat < 0xD800 ∨ 0xE000 ≤ c.toNat := by
  rcases c.valid with hc | hc
  · exact .inl hc
  · exact .inr hc.1

theorem utf16Char_ne_nil (c : Char) : utf16Char c ≠ [] := by
  unfold utf16Char
  split_ifs <;> simp

theorem before_utf16Char {c d : Char} (h : c < d)
    (hsame : ¬ (0xE000 ≤ c.toNat ∧ c.toNat < 0x10000 ∧ 0x10000 ≤ d.toNat)) :
    Before (utf16Char c) (utf16Char d) := by
  rw [lt_iff_toNat_lt] at h
  have hlast := toNat_lt d
  have hsurrogate := not_surrogate c
  unfold utf16Char
  by_cases hc : c.toNat < 0x10000
  · rw [if_pos hc]
    split_ifs
    · exact .here (codeUnit_lt (by omega) (by omega))
    · exact .here (codeUnit_lt (by omega) (by omega))
  · rw [if_neg hc, if_neg (by omega)]
    by_cases hhigh : (c.toNat - 0x10000) / 0x400 < (d.toNat - 0x10000) / 0x400
    · exact .here (codeUnit_lt (by omega) (by omega))
    · exact .behind (by rw [show (c.toNat - 0x10000) / 0x400 = (d.toNat - 0x10000) / 0x400 by omega])
        (.here (codeUnit_lt (by omega) (by omega)))

theorem before_utf16Char_swap {c d : Char} (hc : 0xE000 ≤ c.toNat) (hc' : c.toNat < 0x10000)
    (hd : 0x10000 ≤ d.toNat) : Before (utf16Char d) (utf16Char c) := by
  have hlast := toNat_lt d
  unfold utf16Char
  rw [if_pos hc', if_neg (by omega)]
  exact .here (codeUnit_lt (by omega) (by omega))

/-- **Code units** are ordered as the characters are, unless the orders differ. -/
theorem utf16_lt_utf16 {s t : List Char} (h : s < t) :
    (¬ OrdersDiffer s t → utf16 s < utf16 t) ∧ (OrdersDiffer s t → utf16 t < utf16 s) := by
  induction s generalizing t with
  | nil =>
      cases t with
      | nil => simp at h
      | cons d t =>
          obtain ⟨x, xs, hx⟩ := List.exists_cons_of_ne_nil (utf16Char_ne_nil d)
          refine ⟨fun _ => ?_, fun hdiffer => hdiffer.elim⟩
          rw [utf16, utf16, List.flatMap_cons, hx]
          exact List.nil_lt_cons _ _
  | cons c s ih =>
      cases t with
      | nil => simp at h
      | cons d t =>
          rw [OrdersDiffer, utf16, utf16, List.flatMap_cons, List.flatMap_cons]
          by_cases hcd : c = d
          · rw [if_pos hcd, hcd]
            simp only [append_lt_append_left_iff]
            rcases List.cons_lt_cons_iff.mp h with hlt | ⟨-, hlt⟩
            · exact absurd hcd hlt.ne
            · exact ih hlt
          · rw [if_neg hcd]
            rcases List.cons_lt_cons_iff.mp h with hlt | ⟨heq, -⟩
            · exact ⟨fun hsame => (before_utf16Char hlt hsame).append_lt _ _,
                fun hdiffer => (before_utf16Char_swap hdiffer.1 hdiffer.2.1 hdiffer.2.2).append_lt _ _⟩
            · exact absurd heq hcd

/-- Different texts have different code units. -/
theorem utf16_injective : Function.Injective utf16 := by
  have hne : ∀ {s t : List Char}, s < t → utf16 s ≠ utf16 t := by
    intro s t h heq
    obtain ⟨hsame, hdiffer⟩ := utf16_lt_utf16 h
    by_cases horders : OrdersDiffer s t
    · exact List.lt_irrefl _ (heq ▸ hdiffer horders)
    · exact List.lt_irrefl _ (heq ▸ hsame horders)
  intro s t heq
  rcases lt_trichotomy s t with hlt | hst | hgt
  · exact absurd heq (hne hlt)
  · exact hst
  · exact absurd heq.symm (hne hgt)

/-- The orders differ only on texts in order. -/
theorem OrdersDiffer.lt {s t : List Char} (h : OrdersDiffer s t) : s < t := by
  induction s generalizing t with
  | nil => exact h.elim
  | cons c s ih =>
      cases t with
      | nil => exact h.elim
      | cons d t =>
          rw [OrdersDiffer] at h
          by_cases hcd : c = d
          · rw [if_pos hcd] at h
            exact List.cons_lt_cons_iff.mpr (.inr ⟨hcd, ih h⟩)
          · rw [if_neg hcd] at h
            refine List.cons_lt_cons_iff.mpr (.inl ?_)
            rw [lt_iff_toNat_lt]
            omega

/-- A text has no more code units than bytes. -/
theorem length_utf16_le (text : List Char) : (utf16 text).length ≤ (utf8 text).length := by
  induction text with
  | nil => exact le_refl _
  | cons c text ih =>
      have hchar : (utf16Char c).length ≤ (String.utf8EncodeChar c).length := by
        change (if c.val.toNat < 0x10000 then _ else _ : List UInt16).length ≤ _
        unfold String.utf8EncodeChar
        dsimp only
        split_ifs <;> simp
        omega
      rw [utf16, utf8, List.flatMap_cons, List.flatMap_cons, List.length_append, List.length_append]
      exact Nat.add_le_add hchar ih

/-! ## Texts of JavaScript -/

/-- The code units of a text, as numbers. -/
def codeUnits (text : String) : List Nat := (utf16 text.toList).map UInt16.toNat

theorem codeUnits_injective : Function.Injective codeUnits :=
  (List.map_injective_iff.mpr fun _ _ => UInt16.toNat_inj.mp).comp
    (utf16_injective.comp fun _ _ => String.toList_injective)

/-- `left < right ? -1 : left > right ? 1 : 0`: texts are compared by their code units. -/
def compareCodeUnits (left right : String) : Ordering :=
  if codeUnits left < codeUnits right then .lt
  else if codeUnits left > codeUnits right then .gt
  else .eq

theorem compareCodeUnits_eq_lt {left right : String} :
    compareCodeUnits left right = .lt ↔ codeUnits left < codeUnits right := by
  unfold compareCodeUnits
  split_ifs <;> simp [*]

theorem compareCodeUnits_ne_gt {left right : String} :
    compareCodeUnits left right ≠ .gt ↔ codeUnits left ≤ codeUnits right := by
  unfold compareCodeUnits
  by_cases hlt : codeUnits left < codeUnits right
  · simp [hlt, hlt.le]
  · by_cases hgt : codeUnits left > codeUnits right
    · simp [hgt, hlt]
    · simp [hgt, hlt, not_lt.mp hgt]

end AtlasManager.Lib
