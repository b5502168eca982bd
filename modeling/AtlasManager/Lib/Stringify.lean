import AtlasManager.Lib.Rfc8259

/-!
# AtlasManager.Lib.Stringify

What `JSON.stringify` writes: a text without blanks, in which a string has escapes
for quotes, reverse solidi, control characters and halves of surrogate pairs.

* `isJsonText_write` -- what is written is a text of the grammar, with the tree it is
  written from;
* `toNumber_numeral` -- the numerals of safe integers stand for these.
-/

namespace AtlasManager.Lib.Rfc8259

/-! ## Writing -/

def hexUnit (n : Nat) : CodeUnit := unit (Nat.digitChar n)

/-- A code unit in hexadecimal. -/
def unicodeEscape (c : CodeUnit) : Text :=
  [0x5C, unit 'u', hexUnit (c.toNat / 4096), hexUnit (c.toNat / 256 % 16),
    hexUnit (c.toNat / 16 % 16), hexUnit (c.toNat % 16)]

/-- A code unit that is no half of a pair. -/
def quoteUnit (c : CodeUnit) : Text :=
  if c = 0x22 then [0x5C, 0x22]
  else if c = 0x5C then [0x5C, 0x5C]
  else if c = 0x08 then [0x5C, unit 'b']
  else if c = 0x0C then [0x5C, unit 'f']
  else if c = 0x0A then [0x5C, unit 'n']
  else if c = 0x0D then [0x5C, unit 'r']
  else if c = 0x09 then [0x5C, unit 't']
  else if c < 0x20 then unicodeEscape c
  else [c]

def isLeadingSurrogate (c : CodeUnit) : Bool := 0xD800 ≤ c && c ≤ 0xDBFF

def isTrailingSurrogate (c : CodeUnit) : Bool := 0xDC00 ≤ c && c ≤ 0xDFFF

/-- `QuoteJSONString`, without the quotes. -/
def quoteUnits : Text → Text
  | [] => []
  | [c] => if isLeadingSurrogate c || isTrailingSurrogate c then unicodeEscape c else quoteUnit c
  | c :: d :: rest =>
    if isLeadingSurrogate c then
      if isTrailingSurrogate d then c :: d :: quoteUnits rest
      else unicodeEscape c ++ quoteUnits (d :: rest)
    else if isTrailingSurrogate c then unicodeEscape c ++ quoteUnits (d :: rest)
    else quoteUnit c ++ quoteUnits (d :: rest)

def quote (s : Text) : Text := 0x22 :: (quoteUnits s ++ [0x22])

mutual

def Tree.write : Tree → Text
  | .null => [unit 'n', unit 'u', unit 'l', unit 'l']
  | .bool true => [unit 't', unit 'r', unit 'u', unit 'e']
  | .bool false => [unit 'f', unit 'a', unit 'l', unit 's', unit 'e']
  | .num literal => literal
  | .str s => quote s
  | .arr items => unit '[' :: (writeItems items ++ [unit ']'])
  | .obj members => unit '{' :: (writeMembers members ++ [unit '}'])

def writeItems : List Tree → Text
  | [] => []
  | [item] => item.write
  | item :: next :: items => item.write ++ unit ',' :: writeItems (next :: items)

def writeMembers : List (Text × Tree) → Text
  | [] => []
  | [(name, item)] => quote name ++ unit ':' :: item.write
  | (name, item) :: next :: members =>
    quote name ++ unit ':' :: (item.write ++ unit ',' :: writeMembers (next :: members))

end

mutual

/-- All literals of numbers are numbers of the grammar. -/
def Tree.LiteralsValid : Tree → Prop
  | .num literal => IsNumber literal
  | .arr items => ItemLiteralsValid items
  | .obj members => MemberLiteralsValid members
  | _ => True

def ItemLiteralsValid : List Tree → Prop
  | [] => True
  | item :: items => item.LiteralsValid ∧ ItemLiteralsValid items

def MemberLiteralsValid : List (Text × Tree) → Prop
  | [] => True
  | (_, item) :: members => item.LiteralsValid ∧ MemberLiteralsValid members

end

/-! ## What is written is derived -/

theorem hexDigit?_hexUnit : ∀ n < 16, hexDigit? (hexUnit n) = some (UInt16.ofNat n) := by decide

theorem isChar_unicodeEscape (c : CodeUnit) (r : Text) : IsChar (unicodeEscape c ++ r) c r := by
  have hc : c.toNat < 65536 := c.toNat_lt
  have hread := IsChar.hex (r := r) (hexDigit?_hexUnit (c.toNat / 4096) (by omega))
    (hexDigit?_hexUnit (c.toNat / 256 % 16) (by omega))
    (hexDigit?_hexUnit (c.toNat / 16 % 16) (by omega)) (hexDigit?_hexUnit (c.toNat % 16) (by omega))
  have hsum : ((UInt16.ofNat (c.toNat / 4096) * 16 + UInt16.ofNat (c.toNat / 256 % 16)) * 16 +
      UInt16.ofNat (c.toNat / 16 % 16)) * 16 + UInt16.ofNat (c.toNat % 16) = c := by
    refine UInt16.toNat_inj.mp ?_
    simp only [UInt16.toNat_add, UInt16.toNat_mul, UInt16.toNat_ofNat', UInt16.toNat_ofNat]
    omega
  rw [hsum] at hread
  exact hread

theorem isChar_quoteUnit (c : CodeUnit) (r : Text) : IsChar (quoteUnit c ++ r) c r := by
  unfold quoteUnit
  by_cases h1 : c = 0x22
  · rw [if_pos h1, h1]
    exact .escaped (by simp [escapes])
  rw [if_neg h1]
  by_cases h2 : c = 0x5C
  · rw [if_pos h2, h2]
    exact .escaped (by simp [escapes])
  rw [if_neg h2]
  by_cases h3 : c = 0x08
  · rw [if_pos h3, h3]
    exact .escaped (by simp [escapes])
  rw [if_neg h3]
  by_cases h4 : c = 0x0C
  · rw [if_pos h4, h4]
    exact .escaped (by simp [escapes])
  rw [if_neg h4]
  by_cases h5 : c = 0x0A
  · rw [if_pos h5, h5]
    exact .escaped (by simp [escapes])
  rw [if_neg h5]
  by_cases h6 : c = 0x0D
  · rw [if_pos h6, h6]
    exact .escaped (by simp [escapes])
  rw [if_neg h6]
  by_cases h7 : c = 0x09
  · rw [if_pos h7, h7]
    exact .escaped (by simp [escapes])
  rw [if_neg h7]
  by_cases hcontrol : c < 0x20
  · rw [if_pos hcontrol]
    exact isChar_unicodeEscape c r
  · rw [if_neg hcontrol]
    exact .unescaped (UInt16.not_lt.mp hcontrol) h1 h2

/-- Surrogates are no control characters and need no escape. -/
theorem isChar_surrogate {c : CodeUnit} (h : 0xD800 ≤ c) (r : Text) : IsChar (c :: r) c r := by
  rw [UInt16.le_iff_toNat_le] at h
  have hlarge : 0xD800 ≤ c.toNat := h
  refine .unescaped ?_ ?_ ?_
  · rw [UInt16.le_iff_toNat_le]
    exact le_trans (show (0x20 : Nat) ≤ 0xD800 by norm_num) hlarge
  · rintro rfl
    exact absurd hlarge (by decide)
  · rintro rfl
    exact absurd hlarge (by decide)

theorem isChars_quoteUnits (s t : Text) : IsChars (quoteUnits s ++ t) s t := by
  fun_induction quoteUnits s with
  | case1 => exact .nil
  | case2 c _ => exact .cons (isChar_unicodeEscape c t) .nil
  | case3 c _ => exact .cons (isChar_quoteUnit c t) .nil
  | case4 c d rest hleading htrailing ih =>
      simp only [isLeadingSurrogate, isTrailingSurrogate, Bool.and_eq_true, decide_eq_true_eq] at *
      refine .cons (isChar_surrogate hleading.1 _) (.cons (isChar_surrogate ?_ _) ih)
      exact UInt16.le_trans (by decide) htrailing.1
  | case5 c d rest _ _ ih =>
      rw [List.append_assoc]
      exact .cons (isChar_unicodeEscape c _) ih
  | case6 c d rest _ _ ih =>
      rw [List.append_assoc]
      exact .cons (isChar_unicodeEscape c _) ih
  | case7 c d rest _ _ ih =>
      rw [List.append_assoc]
      exact .cons (isChar_quoteUnit c _) ih

theorem isString_quote (s r : Text) : IsString (quote s ++ r) s r := by
  rw [quote, List.cons_append, List.append_assoc, List.singleton_append]
  exact .quoted (isChars_quoteUnits s _)

theorem structural_cons (c : CodeUnit) (r : Text) : Structural c (c :: r) r := ⟨r, .nil, .nil⟩

mutual

theorem isValue_write (tree : Tree) (h : tree.LiteralsValid) (r : Text) :
    IsValue (tree.write ++ r) tree r := by
  cases tree with
  | null => exact .null
  | bool b =>
      cases b with
      | true => exact .true
      | false => exact .false
  | num literal =>
      rw [Tree.LiteralsValid] at h
      exact .number h
  | str s =>
      rw [Tree.write]
      exact .string (isString_quote s r)
  | arr items =>
      rw [Tree.LiteralsValid] at h
      rw [Tree.write, List.cons_append, List.append_assoc, List.singleton_append]
      by_cases hitems : items = []
      · rw [hitems]
        exact .emptyArray (structural_cons _ _) (structural_cons _ _)
      · exact .array (structural_cons _ _) (isItems_write items hitems h _) (structural_cons _ _)
  | obj members =>
      rw [Tree.LiteralsValid] at h
      rw [Tree.write, List.cons_append, List.append_assoc, List.singleton_append]
      by_cases hmembers : members = []
      · rw [hmembers]
        exact .emptyObject (structural_cons _ _) (structural_cons _ _)
      · exact .object (structural_cons _ _) (isMembers_write members hmembers h _)
          (structural_cons _ _)
  termination_by sizeOf tree

theorem isItems_write (items : List Tree) (hne : items ≠ []) (h : ItemLiteralsValid items)
    (r : Text) : IsItems (writeItems items ++ r) items r := by
  match items with
  | [] => exact absurd rfl hne
  | [item] =>
      rw [ItemLiteralsValid] at h
      rw [writeItems]
      exact .one (isValue_write item h.1 r)
  | item :: next :: items =>
      rw [ItemLiteralsValid] at h
      rw [writeItems, List.append_assoc, List.cons_append]
      exact .more (isValue_write item h.1 _) (structural_cons _ _)
        (isItems_write (next :: items) (by simp) h.2 r)
  termination_by sizeOf items

theorem isMembers_write (members : List (Text × Tree)) (hne : members ≠ [])
    (h : MemberLiteralsValid members) (r : Text) :
    IsMembers (writeMembers members ++ r) members r := by
  match members with
  | [] => exact absurd rfl hne
  | [(name, item)] =>
      rw [MemberLiteralsValid] at h
      rw [writeMembers, List.append_assoc, List.cons_append]
      exact .one (isString_quote name _) (structural_cons _ _) (isValue_write item h.1 r)
  | (name, item) :: next :: members =>
      rw [MemberLiteralsValid] at h
      rw [writeMembers, List.append_assoc, List.cons_append, List.append_assoc, List.cons_append]
      exact .more (isString_quote name _) (structural_cons _ _) (isValue_write item h.1 _)
        (structural_cons _ _) (isMembers_write (next :: members) (by simp) h.2 r)
  termination_by sizeOf members

end

/-- What is written, with whitespace behind it, is a text of the grammar. -/
theorem isJsonText_write {tree : Tree} (h : tree.LiteralsValid) {blanks : Text}
    (hblanks : Ws blanks []) : IsJsonText (tree.write ++ blanks) tree :=
  ⟨_, blanks, .nil, isValue_write tree h blanks, hblanks⟩

/-! ## Numerals -/

/-- The numeral of a natural number. -/
def numeral (n : Nat) : Text :=
  if n = 0 then [unit '0'] else (Nat.digits 10 n).reverse.map hexUnit

theorem isDigit_hexUnit : ∀ d < 10, isDigit (hexUnit d) = true ∧
    (hexUnit d).toNat - (unit '0').toNat = d ∧ (hexUnit d = unit '0' → d = 0) := by
  decide

theorem isDigit_of_mem_numeral {n : Nat} {c : CodeUnit} (h : c ∈ numeral n) : isDigit c = true := by
  rw [numeral] at h
  by_cases hn : n = 0
  · rw [if_pos hn, List.mem_singleton] at h
    rw [h]
    decide
  · rw [if_neg hn, List.mem_map] at h
    obtain ⟨d, hd, rfl⟩ := h
    exact (isDigit_hexUnit d (Nat.digits_lt_base (by norm_num) (List.mem_reverse.mp hd))).1

theorem decimal_numeral (n : Nat) : decimal (numeral n) = n := by
  rw [numeral]
  by_cases hn : n = 0
  · rw [if_pos hn, hn]
    decide
  · rw [if_neg hn, decimal, List.foldl_map, List.foldl_reverse]
    conv_rhs => rw [← Nat.ofDigits_digits 10 n]
    have hdigits : ∀ d ∈ Nat.digits 10 n, d < 10 := fun d hd => Nat.digits_lt_base (by norm_num) hd
    generalize Nat.digits 10 n = ds at hdigits
    induction ds with
    | nil => rfl
    | cons d ds ih =>
        rw [List.foldr_cons, ih (fun d hd => hdigits d (List.mem_cons_of_mem _ hd)),
          (isDigit_hexUnit d (hdigits d List.mem_cons_self)).2.1, Nat.ofDigits_cons]
        ring

theorem isInt_numeral (n : Nat) : IsInt (numeral n) := by
  have hdigits := @isDigit_of_mem_numeral n
  by_cases hn : n = 0
  · rw [numeral, if_pos hn]
    exact .zero
  · have hne : Nat.digits 10 n ≠ [] := Nat.digits_ne_nil_iff_ne_zero.mpr hn
    have hlast := Nat.getLast_digit_ne_zero 10 hn
    rw [numeral, if_neg hn] at hdigits ⊢
    cases hreverse : (Nat.digits 10 n).reverse with
    | nil => exact absurd (List.reverse_eq_nil_iff.mp hreverse) hne
    | cons d ds =>
        have hd : d = (Nat.digits 10 n).getLast hne := by
          have hhead : (Nat.digits 10 n).reverse.head? = some d := by rw [hreverse]; rfl
          rw [List.head?_reverse, List.getLast?_eq_some_getLast hne, Option.some_inj] at hhead
          exact hhead.symm
        rw [hreverse, List.map_cons] at hdigits
        rw [List.map_cons]
        refine .nonzero (hdigits List.mem_cons_self) ?_ fun c hc => hdigits (List.mem_cons_of_mem _ hc)
        intro hzero
        have hlt : d < 10 :=
          Nat.digits_lt_base (by norm_num) (by rw [hd]; exact List.getLast_mem hne)
        exact hlast (hd ▸ (isDigit_hexUnit d hlt).2.2 hzero)

theorem isNumber_numeral (n : Nat) : IsNumber (numeral n) := by
  have hnumber := IsNumber.positive (isInt_numeral n) .absent .absent
  rw [List.append_nil, List.append_nil] at hnumber
  exact hnumber

/-- A safe integer is what its numeral stands for. -/
theorem toNumber_numeral {n : Nat} (h : n < 2 ^ 53) : toNumber (numeral n) = .finite false n := by
  have hall : ∀ c ∈ numeral n, isDigit c = true := fun _ => isDigit_of_mem_numeral
  have hsign : (numeral n).head? ≠ some (unit '-') := by
    intro hhead
    exact absurd (hall _ (List.mem_of_mem_head? hhead)) (by decide)
  have hwhole : (numeral n).takeWhile isDigit = numeral n := List.takeWhile_eq_self_iff.mpr hall
  have hbehind : (numeral n).dropWhile isDigit = [] := List.dropWhile_eq_nil_iff.mpr hall
  have hmagnitude : magnitude (numeral n) = n := by
    simp only [magnitude, hwhole, hbehind, List.head?_nil, List.dropWhile_nil, List.filter_nil,
      List.tail_nil]
    have hnone : decimal [] = 0 := rfl
    simp [decimal_numeral, hnone]
  rw [toNumber, if_neg hsign, hmagnitude, Double.nearest_natCast h]

end AtlasManager.Lib.Rfc8259
