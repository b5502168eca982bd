import Mathlib

/-!
# AtlasManager.Lib.GoText

Go strings and the functions of the package `strings` on them.  A string is
a sequence of bytes; it need not be valid UTF-8.

* `cut_append` -- the separator behind a text without it is where it is cut;
* `split_lines` -- lines without line ends come back from `split`;
* `parseDigits_decimal` -- a decimal numeral reads back as its number;
* `eq_decimal_iff` -- the decimal numerals are the texts of digits without a
  leading zero, each of the number a loop over the digits computes.
-/

namespace AtlasManager.Lib.GoText

abbrev Text := List UInt8

/-- The bytes of a string literal. -/
def bytes (s : String) : Text := s.toUTF8.toList

/-- `\n`. -/
def newline : UInt8 := 10

/-- `\r`. -/
def carriageReturn : UInt8 := 13

/-- `=`. -/
def equals : UInt8 := 61

/-- `strings.Split` at a single byte. -/
def split (separator : UInt8) (text : Text) : List Text := text.splitOn separator

/-- What stands before and after the first `separator`, as `strings.SplitN` with the
bound 2 and `strings.IndexByte` find it; `none` when there is none. -/
def cut (separator : UInt8) : Text → Option (Text × Text)
  | [] => none
  | b :: rest =>
    if b = separator then some ([], rest)
    else (cut separator rest).map fun (before, after) => (b :: before, after)

@[simp] theorem cut_append {separator : UInt8} {before after : Text} (h : separator ∉ before) :
    cut separator (before ++ separator :: after) = some (before, after) := by
  induction before with
  | nil => simp [cut]
  | cons b rest ih =>
      simp only [List.mem_cons, not_or] at h
      rw [List.cons_append, cut, if_neg (Ne.symm h.1), ih h.2]
      rfl

/-- Each line with its line end. -/
def unlines (lines : List Text) : Text := lines.flatMap (· ++ [newline])

theorem unlines_eq_intercalate (lines : List Text) :
    unlines lines = [newline].intercalate (lines ++ [[]]) := by
  induction lines with
  | nil => rfl
  | cons line rest ih =>
      rw [unlines, List.flatMap_cons, ← unlines, ih, List.cons_append]
      cases rest <;> simp [List.intercalate]

/-- Lines come back, and behind the last line end there is an empty one. -/
theorem split_lines {lines : List Text} (h : ∀ line ∈ lines, newline ∉ line) :
    split newline (unlines lines) = lines ++ [[]] := by
  rw [split, unlines_eq_intercalate]
  refine List.splitOn_intercalate _ ?_ (by simp)
  intro line hline
  rcases List.mem_append.mp hline with hmem | hlast
  · exact h line hmem
  · rw [List.mem_singleton.mp hlast]
    exact List.not_mem_nil

/-! ## UTF-8 -/

/-- A byte inside the encoding of a character. -/
def isContinuation (b : UInt8) : Bool := 0x80 ≤ b && b ≤ 0xBF

/-- The second bytes a first byte of three or four bytes admits: no overlong
encodings, no surrogates, nothing beyond U+10FFFF. -/
def admitsSecond (first second : UInt8) : Bool :=
  if first = 0xE0 then 0xA0 ≤ second && second ≤ 0xBF
  else if first = 0xED then 0x80 ≤ second && second ≤ 0x9F
  else if first = 0xF0 then 0x90 ≤ second && second ≤ 0xBF
  else if first = 0xF4 then 0x80 ≤ second && second ≤ 0x8F
  else isContinuation second

/-- `utf8.Valid`. -/
def utf8Valid : Text → Bool
  | [] => true
  | a :: rest =>
    if a < 0x80 then utf8Valid rest
    else match rest with
      | [] => false
      | b :: rest =>
        if 0xC2 ≤ a && a ≤ 0xDF then isContinuation b && utf8Valid rest
        else match rest with
          | [] => false
          | c :: rest =>
            if 0xE0 ≤ a && a ≤ 0xEF then admitsSecond a b && isContinuation c && utf8Valid rest
            else match rest with
              | [] => false
              | d :: rest =>
                0xF0 ≤ a && a ≤ 0xF4 && admitsSecond a b && isContinuation c &&
                  isContinuation d && utf8Valid rest

theorem utf8Valid_of_ascii {text : Text} (h : ∀ b ∈ text, b < 0x80) : utf8Valid text = true := by
  induction text with
  | nil => simp [utf8Valid]
  | cons b rest ih =>
      have hb : b < 0x80 := h b (by simp)
      simp only [utf8Valid.eq_def (b :: rest), if_pos hb]
      exact ih fun c hc => h c (by simp [hc])

/-! ## Decimal numerals -/

def isDigit (b : UInt8) : Bool := 48 ≤ b && b ≤ 57

/-- `strconv.FormatUint` in base 10. -/
def decimal (n : Nat) : Text :=
  if n = 0 then [48] else (Nat.digits 10 n).reverse.map fun d => 48 + UInt8.ofNat d

/-- The number a text of digits denotes; `none` when it is empty or something else
than digits. -/
def parseDigits (text : Text) : Option Nat :=
  if text ≠ [] ∧ text.all isDigit then
    some (Nat.ofDigits 10 (text.reverse.map fun b => (b - 48).toNat))
  else none

/-- `strconv.FormatInt` in base 10. -/
def formatInt (n : Int) : Text :=
  if n < 0 then 45 :: decimal n.natAbs else decimal n.natAbs

private theorem digit_byte : ∀ d < 10,
    isDigit (48 + UInt8.ofNat d) = true ∧ ((48 + UInt8.ofNat d : UInt8) - 48).toNat = d := by
  decide

theorem decimal_ne_nil (n : Nat) : decimal n ≠ [] := by
  unfold decimal
  by_cases hn : n = 0
  · simp [hn]
  · simp [hn, Nat.digits_ne_nil_iff_ne_zero]

theorem isDigit_of_mem_decimal {n : Nat} {b : UInt8} (h : b ∈ decimal n) : isDigit b = true := by
  unfold decimal at h
  by_cases hn : n = 0
  · rw [if_pos hn, List.mem_singleton] at h
    rw [h]
    decide
  · rw [if_neg hn, List.mem_map] at h
    obtain ⟨d, hd, hb⟩ := h
    rw [← hb]
    exact (digit_byte d (Nat.digits_lt_base (by decide) (List.mem_reverse.mp hd))).1

/-- **Numeral roundtrip**: the numeral of a number reads back as the number. -/
@[simp] theorem parseDigits_decimal (n : Nat) : parseDigits (decimal n) = some n := by
  have hall : (decimal n).all isDigit = true :=
    List.all_eq_true.mpr fun b hb => isDigit_of_mem_decimal hb
  rw [parseDigits, if_pos ⟨decimal_ne_nil n, hall⟩]
  unfold decimal
  by_cases hn : n = 0
  · simp [hn]
  · rw [if_neg hn, ← List.map_reverse, List.reverse_reverse, List.map_map]
    have hdigits : (Nat.digits 10 n).map ((fun b : UInt8 => (b - 48).toNat) ∘
        fun d => 48 + UInt8.ofNat d) = Nat.digits 10 n := by
      rw [List.map_congr_left (g := id), List.map_id]
      intro d hd
      exact (digit_byte d (Nat.digits_lt_base (by decide) hd)).2
    rw [hdigits, Nat.ofDigits_digits]

/-- No numeral has a leading zero. -/
theorem head_decimal_ne {n : Nat} (h : 1 < (decimal n).length) : (decimal n).head? ≠ some 48 := by
  unfold decimal at *
  by_cases hn : n = 0
  · simp [hn] at h
  · rw [if_neg hn, List.head?_map, List.head?_reverse,
      List.getLast?_eq_getLast_of_ne_nil (Nat.digits_ne_nil_iff_ne_zero.mpr hn)]
    have hlast := Nat.getLast_digit_ne_zero 10 hn
    have hlt := Nat.digits_lt_base (by decide : 1 < 10)
      (List.getLast_mem (Nat.digits_ne_nil_iff_ne_zero.mpr hn))
    generalize (Nat.digits 10 n).getLast _ = d at *
    simp only [Option.map_some, ne_eq, Option.some.injEq]
    intro heq
    have hback := (digit_byte d hlt).2
    rw [heq] at hback
    exact hlast (by rw [← hback]; decide)

theorem length_decimal_le {n w : Nat} (h : n < 10 ^ (w + 1)) : (decimal n).length ≤ w + 1 := by
  unfold decimal
  by_cases hn : n = 0
  · simp [hn]
  · rw [if_neg hn, List.length_map, List.length_reverse]
    exact (Nat.digits_length_le_iff (by decide) n).mpr h

theorem decimal_injective {m n : Nat} (h : decimal m = decimal n) : m = n := by
  have hread : parseDigits (decimal m) = parseDigits (decimal n) := by rw [h]
  simpa using hread

private theorem digit_value : ∀ b : UInt8, isDigit b = true →
    (b - 48).toNat < 10 ∧ 48 + UInt8.ofNat (b - 48).toNat = b := by
  decide +kernel

/-- A text of digits without a leading zero is the numeral of what it denotes. -/
theorem decimal_of_parseDigits {text : Text} {n : Nat} (h : parseDigits text = some n)
    (hlead : 1 < text.length → text.head? ≠ some 48) : decimal n = text := by
  unfold parseDigits at h
  by_cases hcond : text ≠ [] ∧ text.all isDigit
  · rw [if_pos hcond, Option.some.injEq] at h
    obtain ⟨hne, hall⟩ := hcond
    have hdigit : ∀ b ∈ text, isDigit b = true := List.all_eq_true.mp hall
    by_cases hzero : text = [48]
    · rw [← h, hzero]
      decide
    · have hhead : text.head? ≠ some 48 := by
        cases text with
        | nil => exact absurd rfl hne
        | cons b rest =>
            cases rest with
            | nil => simpa using hzero
            | cons c rest => exact hlead (by simp)
      -- The digits from the last to the first are those of the number.
      have hback : Nat.digits 10 n = text.reverse.map fun b => (b - 48).toNat := by
        rw [← h]
        refine Nat.digits_ofDigits 10 (by decide) _ ?_ ?_
        · intro d hd
          obtain ⟨b, hb, hd⟩ := List.mem_map.mp hd
          rw [← hd]
          exact (digit_value b (hdigit b (List.mem_reverse.mp hb))).1
        · intro hmap
          rw [List.getLast_map, List.getLast_reverse]
          intro hval
          have hfirst := digit_value (text.head hne) (hdigit _ (List.head_mem hne))
          rw [hval] at hfirst
          refine hhead ?_
          rw [List.head?_eq_some_head hne, ← hfirst.2]
          rfl
      have hn : n ≠ 0 := by
        rw [← Nat.digits_ne_nil_iff_ne_zero (b := 10), hback]
        simpa using hne
      rw [decimal, if_neg hn, hback, ← List.map_reverse, List.reverse_reverse, List.map_map]
      conv_rhs => rw [← List.map_id text]
      exact List.map_congr_left fun b hb => (digit_value b (hdigit b hb)).2
  · rw [if_neg hcond] at h
    cases h

/-- The number denoted when reading goes on from `n`, one digit after the other. -/
def digitsFrom (n : Nat) (text : Text) : Nat :=
  text.foldl (fun value b => value * 10 + (b - 48).toNat) n

theorem digitsFrom_cons (n : Nat) (b : UInt8) (rest : Text) :
    digitsFrom n (b :: rest) = digitsFrom (n * 10 + (b - 48).toNat) rest := rfl

theorem le_digitsFrom (n : Nat) (text : Text) : n ≤ digitsFrom n text := by
  induction text generalizing n with
  | nil => exact Nat.le_refl n
  | cons b rest ih =>
      have hrest := ih (n * 10 + (b - 48).toNat)
      rw [digitsFrom_cons]
      omega

/-- Reading on from a remainder gives the remainder. -/
theorem digitsFrom_mod (n m : Nat) (text : Text) :
    digitsFrom (n % m) text % m = digitsFrom n text % m := by
  induction text generalizing n with
  | nil => exact Nat.mod_mod n m
  | cons b rest ih =>
      have hstep : (n % m * 10 + (b - 48).toNat) % m = (n * 10 + (b - 48).toNat) % m := by
        simp [Nat.add_mod, Nat.mul_mod]
      rw [digitsFrom_cons, digitsFrom_cons, ← ih, hstep, ih]

theorem parseDigits_eq_some {text : Text} {n : Nat} :
    parseDigits text = some n ↔ text ≠ [] ∧ text.all isDigit = true ∧ digitsFrom 0 text = n := by
  have hvalue : Nat.ofDigits 10 (text.reverse.map fun b => (b - 48).toNat) = digitsFrom 0 text := by
    rw [Nat.ofDigits_eq_foldr, List.foldr_map, List.foldr_reverse, digitsFrom]
    congr 1
    funext value b
    push_cast
    omega
  rw [parseDigits, hvalue]
  by_cases hcond : text ≠ [] ∧ text.all isDigit
  · rw [if_pos hcond, Option.some.injEq]
    constructor
    · intro h
      exact ⟨hcond.1, hcond.2, h⟩
    · intro h
      exact h.2.2
  · rw [if_neg hcond]
    constructor
    · intro h
      cases h
    · intro h
      exact absurd ⟨h.1, h.2.1⟩ hcond

/-- The check a reader makes before its digit loop: no empty text and no leading zero. -/
def isLead (text : Text) : Bool := !(text = [] || (1 < text.length && text.head? = some 48))

/-- **The canonical numerals**: the numeral of `n` is the one text of digits without a
leading zero that denotes it. -/
theorem eq_decimal_iff {text : Text} {n : Nat} :
    text = decimal n ↔ isLead text = true ∧ text.all isDigit = true ∧ digitsFrom 0 text = n := by
  constructor
  · intro h
    have hread := parseDigits_eq_some.mp (parseDigits_decimal n)
    rw [← h] at hread
    refine ⟨?_, hread.2⟩
    by_cases hlen : 1 < text.length
    · have hhead : text.head? ≠ some 48 := by
        rw [h] at hlen ⊢
        exact head_decimal_ne hlen
      simp [isLead, hread.1, hhead]
    · simp [isLead, hread.1, hlen]
  · rintro ⟨hlead, hall, hvalue⟩
    have hlead' : text ≠ [] ∧ (1 < text.length → text.head? ≠ some 48) := by
      simpa [isLead, imp_iff_not_or] using hlead
    exact (decimal_of_parseDigits (parseDigits_eq_some.mpr ⟨hlead'.1, hall, hvalue⟩) hlead'.2).symm

/-! ## White space -/

def isAsciiSpace (b : UInt8) : Bool := (9 ≤ b && b ≤ 13) || b = 32

/-- The last bytes of the spaces from U+2000 to U+200A, and of U+2028, U+2029 and U+202F. -/
def endsSpace (b : UInt8) : Bool :=
  (0x80 ≤ b && b ≤ 0x8A) || b = 0xA8 || b = 0xA9 || b = 0xAF

/-- `text` without the white space it begins with.  Beyond one byte these are the
characters of `unicode.IsSpace` in UTF-8. -/
def trimLeft : Text → Text
  | 0xC2 :: 0x85 :: rest => trimLeft rest
  | 0xC2 :: 0xA0 :: rest => trimLeft rest
  | 0xE1 :: 0x9A :: 0x80 :: rest => trimLeft rest
  | 0xE2 :: 0x80 :: b :: rest =>
    if endsSpace b then trimLeft rest else 0xE2 :: 0x80 :: b :: rest
  | 0xE2 :: 0x81 :: 0x9F :: rest => trimLeft rest
  | 0xE3 :: 0x80 :: 0x80 :: rest => trimLeft rest
  | b :: rest => if isAsciiSpace b then trimLeft rest else b :: rest
  | [] => []

/-- The same at the other end: `reversed` is read backwards. -/
def trimReversed : Text → Text
  | 0x85 :: 0xC2 :: rest => trimReversed rest
  | 0xA0 :: 0xC2 :: rest => trimReversed rest
  | 0x80 :: 0x9A :: 0xE1 :: rest => trimReversed rest
  | 0x9F :: 0x81 :: 0xE2 :: rest => trimReversed rest
  | 0x80 :: 0x80 :: 0xE3 :: rest => trimReversed rest
  | b :: 0x80 :: 0xE2 :: rest =>
    if isAsciiSpace b then trimReversed (0x80 :: 0xE2 :: rest)
    else if endsSpace b then trimReversed rest
    else b :: 0x80 :: 0xE2 :: rest
  | b :: rest => if isAsciiSpace b then trimReversed rest else b :: rest
  | [] => []

/-- `strings.TrimSpace`. -/
def trimSpace (text : Text) : Text := (trimReversed (trimLeft text).reverse).reverse

/-- A visible ASCII character. -/
def isVisible (b : UInt8) : Bool := 33 ≤ b && b ≤ 126

private theorem trimLeft_visible {b : UInt8} {rest : Text} (h : isVisible b = true) :
    trimLeft (b :: rest) = b :: rest := by
  unfold trimLeft
  split <;> grind [isVisible, isAsciiSpace]

private theorem trimReversed_visible {b : UInt8} {rest : Text} (h : isVisible b = true) :
    trimReversed (b :: rest) = b :: rest := by
  unfold trimReversed
  split <;> grind [isVisible, isAsciiSpace, endsSpace]

/-- A text that begins and ends with a visible character is trimmed of nothing. -/
theorem trimSpace_eq_self {text : Text} (hhead : ∀ b ∈ text.head?, isVisible b = true)
    (hlast : ∀ b ∈ text.getLast?, isVisible b = true) : trimSpace text = text := by
  cases text with
  | nil => decide
  | cons b rest =>
      rw [trimSpace, trimLeft_visible (hhead b (by simp))]
      cases hrev : (b :: rest).reverse with
      | nil => simp at hrev
      | cons c front =>
          have hback := congrArg List.reverse hrev
          rw [List.reverse_reverse] at hback
          have hc : isVisible c = true := hlast c (by rw [hback]; simp)
          rw [trimReversed_visible hc, hback]

end AtlasManager.Lib.GoText
