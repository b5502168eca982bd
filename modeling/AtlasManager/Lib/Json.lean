import AtlasManager.Lib.Js

/-!
# AtlasManager.Lib.Json

JSON texts: a reader for the grammar, a writer that leaves no blanks, and what
JavaScript makes of a text.

Writers differ in the characters they escape, so the writer takes that as a
parameter; all that is asked of it is in `Escapes`.  Numbers keep their
literals.

* `parse_print` -- what was written reads back;
* `print_visible`, `length_print_le` -- what a written text looks like;
* `escapes_escapeChar` -- the writers of the two languages are among these.
-/

namespace AtlasManager.Lib

inductive Json where
  | null
  | bool (b : Bool)
  | num (literal : List Char)
  | str (s : String)
  | arr (items : List Json)
  | obj (fields : List (String × Json))
  deriving Inhabited

namespace Json

/-! ## Reading -/

def isBlank (c : Char) : Bool := c = ' ' || c = '\t' || c = '\n' || c = '\r'

def skipBlanks (cs : List Char) : List Char := cs.dropWhile isBlank

def isDigit (c : Char) : Bool := '0' ≤ c && c ≤ '9'

def hexValue? (c : Char) : Option Nat :=
  if isDigit c then some (c.toNat - 48)
  else if 'a' ≤ c ∧ c ≤ 'f' then some (c.toNat - 97 + 10)
  else if 'A' ≤ c ∧ c ≤ 'F' then some (c.toNat - 65 + 10)
  else none

def escaped? (c : Char) : Option Char :=
  if c = '"' ∨ c = '\\' ∨ c = '/' then some c
  else if c = 'b' then some (Char.ofNat 8)
  else if c = 'f' then some (Char.ofNat 12)
  else if c = 'n' then some '\n'
  else if c = 'r' then some '\r'
  else if c = 't' then some '\t'
  else none

/-- One character of a string, or a code unit that is written as an escape. -/
def readUnit : List Char → Option ((Char ⊕ Nat) × List Char)
  | '\\' :: 'u' :: a :: b :: c :: d :: rest => do
    let a ← hexValue? a
    let b ← hexValue? b
    let c ← hexValue? c
    let d ← hexValue? d
    return (.inr (((a * 16 + b) * 16 + c) * 16 + d), rest)
  | '\\' :: c :: rest => (escaped? c).map fun c => (.inl c, rest)
  | c :: rest => if c.toNat < 0x20 ∨ c = '"' ∨ c = '\\' then none else some (.inl c, rest)
  | [] => none

/-- The units up to the closing quote. -/
def readUnits : Nat → List Char → Option (List (Char ⊕ Nat) × List Char)
  | 0, _ => none
  | fuel + 1, cs =>
    if cs.head? = some '"' then some ([], cs.tail)
    else do
      let (unit, cs) ← readUnit cs
      let (units, rest) ← readUnits fuel cs
      return (unit :: units, rest)

/-- A code unit on its own; half of a pair is replaced. -/
def single (n : Nat) : Char := if 0xD800 ≤ n ∧ n ≤ 0xDFFF then Char.ofNat 0xFFFD else Char.ofNat n

/-- The characters of a string; two code units may make one. -/
def joinUnits : List (Char ⊕ Nat) → List Char
  | [] => []
  | .inl c :: rest => c :: joinUnits rest
  | [.inr n] => [single n]
  | .inr n :: .inl c :: rest => single n :: c :: joinUnits rest
  | .inr high :: .inr low :: rest =>
    if 0xD800 ≤ high ∧ high ≤ 0xDBFF ∧ 0xDC00 ≤ low ∧ low ≤ 0xDFFF then
      Char.ofNat (0x10000 + (high - 0xD800) * 0x400 + (low - 0xDC00)) :: joinUnits rest
    else single high :: joinUnits (.inr low :: rest)

/-- A string behind its opening quote. -/
def readString (cs : List Char) : Option (String × List Char) :=
  (readUnits (cs.length + 1) cs).map fun (units, rest) => (String.ofList (joinUnits units), rest)

def readFraction : List Char → Option (List Char × List Char)
  | '.' :: cs =>
    if cs.takeWhile isDigit = [] then none
    else some ('.' :: cs.takeWhile isDigit, cs.dropWhile isDigit)
  | cs => some ([], cs)

def readExponent : List Char → Option (List Char × List Char)
  | [] => some ([], [])
  | e :: cs =>
    if e ≠ 'e' ∧ e ≠ 'E' then some ([], e :: cs)
    else
      let sign := if cs.head? = some '+' ∨ cs.head? = some '-' then cs.take 1 else []
      let digits := cs.drop sign.length
      if digits.takeWhile isDigit = [] then none
      else some (e :: (sign ++ digits.takeWhile isDigit), digits.dropWhile isDigit)

def readNumber (cs : List Char) : Option (List Char × List Char) := do
  let sign := if cs.head? = some '-' then ['-'] else []
  let cs := cs.drop sign.length
  let digits := cs.takeWhile isDigit
  if digits = [] ∨ (digits.length > 1 ∧ digits.head? = some '0') then none
  let (fraction, cs) ← readFraction (cs.dropWhile isDigit)
  let (exponent, cs) ← readExponent cs
  return (sign ++ digits ++ fraction ++ exponent, cs)

mutual

/-- A value and what follows it. -/
def readValue : Nat → List Char → Option (Json × List Char)
  | 0, _ => none
  | fuel + 1, cs =>
    match skipBlanks cs with
    | '{' :: cs =>
      if (skipBlanks cs).head? = some '}' then some (.obj [], (skipBlanks cs).tail)
      else (readFields fuel cs).map fun (fields, rest) => (.obj fields, rest)
    | '[' :: cs =>
      if (skipBlanks cs).head? = some ']' then some (.arr [], (skipBlanks cs).tail)
      else (readItems fuel cs).map fun (items, rest) => (.arr items, rest)
    | '"' :: cs => (readString cs).map fun (s, rest) => (.str s, rest)
    | 't' :: 'r' :: 'u' :: 'e' :: rest => some (.bool true, rest)
    | 'f' :: 'a' :: 'l' :: 's' :: 'e' :: rest => some (.bool false, rest)
    | 'n' :: 'u' :: 'l' :: 'l' :: rest => some (.null, rest)
    | cs => (readNumber cs).map fun (literal, rest) => (.num literal, rest)

/-- The fields of a record up to the closing brace. -/
def readFields : Nat → List Char → Option (List (String × Json) × List Char)
  | 0, _ => none
  | fuel + 1, cs => do
    let cs := skipBlanks cs
    if cs.head? ≠ some '"' then none
    let (name, cs) ← readString cs.tail
    let cs := skipBlanks cs
    if cs.head? ≠ some ':' then none
    let (value, cs) ← readValue fuel cs.tail
    match skipBlanks cs with
    | ',' :: cs => do
      let (fields, rest) ← readFields fuel cs
      return ((name, value) :: fields, rest)
    | '}' :: rest => some ([(name, value)], rest)
    | _ => none

/-- The items of an array up to the closing bracket. -/
def readItems : Nat → List Char → Option (List Json × List Char)
  | 0, _ => none
  | fuel + 1, cs => do
    let (value, cs) ← readValue fuel cs
    match skipBlanks cs with
    | ',' :: cs => do
      let (items, rest) ← readItems fuel cs
      return (value :: items, rest)
    | ']' :: rest => some ([value], rest)
    | _ => none

end

/-- A text of one value. -/
def parse (cs : List Char) : Option Json :=
  match readValue (cs.length + 1) cs with
  | none => none
  | some (value, rest) => if skipBlanks rest = [] then some value else none

/-! ## Writing -/

section Print

variable (escape : Char → List Char)

def quote (s : String) : List Char := '"' :: (s.toList.flatMap escape ++ ['"'])

mutual

def print : Json → List Char
  | .null => ['n', 'u', 'l', 'l']
  | .bool true => ['t', 'r', 'u', 'e']
  | .bool false => ['f', 'a', 'l', 's', 'e']
  | .num literal => literal
  | .str s => quote escape s
  | .arr items => '[' :: (printItems items ++ [']'])
  | .obj fields => '{' :: (printFields fields ++ ['}'])

def printItems : List Json → List Char
  | [] => []
  | [value] => print value
  | value :: next :: rest => print value ++ ',' :: printItems (next :: rest)

def printFields : List (String × Json) → List Char
  | [] => []
  | [(name, value)] => quote escape name ++ ':' :: print value
  | (name, value) :: next :: rest =>
    quote escape name ++ ':' :: (print value ++ ',' :: printFields (next :: rest))

end

end Print

/-- What a writer may write for a character: something that reads back as it, without
control characters, and not too long. -/
structure Escapes (escape : Char → List Char) : Prop where
  reads : ∀ c rest, readUnit (escape c ++ rest) = some (.inl c, rest) ∨
    (c.toNat < 0xD800 ∧ readUnit (escape c ++ rest) = some (.inr c.toNat, rest))
  head : ∀ c, ∃ d ds, escape c = d :: ds ∧ d ≠ '"'
  visible : ∀ c, ∀ d ∈ escape c, 0x20 ≤ d.toNat
  length_le : ∀ c, (escape c).length ≤ 6

/-- A literal of digits only. -/
def IsNatural (literal : List Char) : Prop :=
  literal ≠ [] ∧ (∀ c ∈ literal, isDigit c = true) ∧
    (1 < literal.length → literal.head? ≠ some '0')

mutual

/-- All numbers are natural numbers. -/
def Naturals : Json → Prop
  | .num literal => IsNatural literal
  | .arr items => ItemNaturals items
  | .obj fields => FieldNaturals fields
  | _ => True

def ItemNaturals : List Json → Prop
  | [] => True
  | value :: rest => Naturals value ∧ ItemNaturals rest

def FieldNaturals : List (String × Json) → Prop
  | [] => True
  | (_, value) :: rest => Naturals value ∧ FieldNaturals rest

end

/-! ## What was written reads back -/

theorem joinUnits_inr {n : Nat} (h : n < 0xD800) (rest : List (Char ⊕ Nat)) :
    joinUnits (.inr n :: rest) = Char.ofNat n :: joinUnits rest := by
  have hsingle : single n = Char.ofNat n := if_neg (by omega)
  cases rest with
  | nil => simp only [joinUnits, hsingle]
  | cons unit rest =>
      cases unit with
      | inl c => simp only [joinUnits, hsingle]
      | inr low => rw [joinUnits, if_neg (by omega), hsingle]

theorem readUnits_escaped {escape : Char → List Char} (h : Escapes escape) (cs rest : List Char)
    {fuel : Nat} (hfuel : cs.length < fuel) :
    ∃ units, readUnits fuel (cs.flatMap escape ++ '"' :: rest) = some (units, rest) ∧
      joinUnits units = cs := by
  induction cs generalizing fuel with
  | nil =>
      cases fuel with
      | zero => simp at hfuel
      | succ fuel => exact ⟨[], by simp [readUnits], rfl⟩
  | cons c cs ih =>
      cases fuel with
      | zero => simp at hfuel
      | succ fuel =>
          obtain ⟨units, hunits, hjoin⟩ := @ih fuel (by simpa using hfuel)
          obtain ⟨d, ds, hescape, hd⟩ := h.head c
          have hhead : (escape c ++ (cs.flatMap escape ++ '"' :: rest)).head? ≠ some '"' := by
            rw [hescape]
            simpa using hd
          rw [List.flatMap_cons, List.append_assoc]
          simp only [readUnits, if_neg hhead]
          rcases h.reads c (cs.flatMap escape ++ '"' :: rest) with hread | ⟨hsmall, hread⟩
          · refine ⟨.inl c :: units, ?_, by rw [joinUnits, hjoin]⟩
            simp [hread, hunits]
          · refine ⟨.inr c.toNat :: units, ?_, ?_⟩
            · simp [hread, hunits]
            · rw [joinUnits_inr hsmall, hjoin, Char.ofNat_toNat]

theorem length_flatMap_escape_le {escape : Char → List Char} (h : Escapes escape)
    (cs : List Char) :
    cs.length ≤ (cs.flatMap escape).length ∧ (cs.flatMap escape).length ≤ 6 * cs.length := by
  induction cs with
  | nil => simp
  | cons c cs ih =>
      obtain ⟨d, ds, hescape, _⟩ := h.head c
      have hle := h.length_le c
      have hpos : 1 ≤ (escape c).length := by simp [hescape]
      simp only [List.flatMap_cons, List.length_append, List.length_cons]
      omega

theorem readString_quote {escape : Char → List Char} (h : Escapes escape) (s : String)
    (rest : List Char) : readString (s.toList.flatMap escape ++ '"' :: rest) = some (s, rest) := by
  have hlength := (length_flatMap_escape_le h s.toList).1
  have hfuel : s.toList.length < (s.toList.flatMap escape ++ '"' :: rest).length + 1 := by
    rw [List.length_append]
    omega
  obtain ⟨units, hunits, hjoin⟩ := readUnits_escaped h s.toList rest hfuel
  rw [readString, hunits, Option.map_some]
  dsimp only
  rw [hjoin, String.ofList_toList]

/-- What may stand behind a number. -/
def EndsNumber (rest : List Char) : Prop :=
  ∀ c ∈ rest.head?, isDigit c = false ∧ c ≠ '.' ∧ c ≠ 'e' ∧ c ≠ 'E'

theorem takeWhile_digits {literal rest : List Char} (h : ∀ c ∈ literal, isDigit c = true)
    (hrest : EndsNumber rest) :
    (literal ++ rest).takeWhile isDigit = literal ∧
      (literal ++ rest).dropWhile isDigit = rest := by
  have hstop : rest.takeWhile isDigit = [] ∧ rest.dropWhile isDigit = rest := by
    cases rest with
    | nil => simp
    | cons c cs =>
        have hc := (hrest c (by simp)).1
        simp [hc]
  rw [List.takeWhile_append_of_pos h, List.dropWhile_append_of_pos h, hstop.1, hstop.2]
  simp

theorem readNumber_natural {literal rest : List Char} (h : IsNatural literal)
    (hrest : EndsNumber rest) : readNumber (literal ++ rest) = some (literal, rest) := by
  obtain ⟨hne, hdigits, hzero⟩ := h
  obtain ⟨htake, hdrop⟩ := takeWhile_digits hdigits hrest
  have hsign : (literal ++ rest).head? ≠ some '-' := by
    cases literal with
    | nil => exact absurd rfl hne
    | cons c cs =>
        intro heq
        have hc := hdigits c (by simp)
        rw [show c = '-' by simpa using heq] at hc
        exact absurd hc (by decide)
  have hfraction : readFraction rest = some ([], rest) := by
    unfold readFraction
    split
    · exact absurd rfl (hrest '.' (by simp)).2.1
    · rfl
  have hexponent : readExponent rest = some ([], rest) := by
    cases rest with
    | nil => rfl
    | cons c cs =>
        have hc := (hrest c (by simp)).2.2
        rw [readExponent, if_pos hc]
  unfold readNumber
  simp only [if_neg hsign, List.length_nil, List.drop_zero, htake, hdrop]
  rw [if_neg (by simp [hne]; exact hzero)]
  simp [hfraction, hexponent]

theorem isBlank_of_isDigit {c : Char} (h : isDigit c = true) : isBlank c = false := by
  by_contra hblank
  simp only [isBlank, Bool.or_eq_false_iff, decide_eq_false_iff_not, not_and, not_not] at hblank
  have hcases : c = ' ' ∨ c = '\t' ∨ c = '\n' ∨ c = '\r' := by tauto
  rcases hcases with rfl | rfl | rfl | rfl <;> exact absurd h (by decide)

/-- The first character that is written is no blank and closes nothing. -/
theorem print_head {escape : Char → List Char} {value : Json} (h : value.Naturals) :
    ∃ c cs, value.print escape = c :: cs ∧ isBlank c = false ∧ c ≠ ']' := by
  cases value with
  | null => exact ⟨'n', _, rfl, by decide, by decide⟩
  | bool b => cases b <;> exact ⟨_, _, rfl, by decide, by decide⟩
  | num literal =>
      obtain ⟨hne, hdigits, _⟩ := h
      cases hlit : literal with
      | nil => exact absurd hlit hne
      | cons c cs =>
          refine ⟨c, cs, by rw [print], ?_⟩
          have hc := hdigits c (by simp [hlit])
          refine ⟨isBlank_of_isDigit hc, fun heq => ?_⟩
          rw [heq] at hc
          exact absurd hc (by decide)
  | str s => exact ⟨'"', _, rfl, by decide, by decide⟩
  | arr items => exact ⟨'[', _, rfl, by decide, by decide⟩
  | obj fields => exact ⟨'{', _, rfl, by decide, by decide⟩

theorem printItems_head {escape : Char → List Char} {item : Json} {items : List Json}
    (h : item.Naturals) :
    ∃ c cs, printItems escape (item :: items) = c :: cs ∧ isBlank c = false ∧ c ≠ ']' := by
  obtain ⟨c, cs, hhead, hc⟩ := @print_head escape item h
  cases items with
  | nil => exact ⟨c, cs, by rw [printItems, hhead], hc⟩
  | cons next items => exact ⟨c, _, by rw [printItems, hhead, List.cons_append], hc⟩

theorem skipBlanks_of_head {c : Char} {cs : List Char} (h : isBlank c = false) :
    skipBlanks (c :: cs) = c :: cs := by
  simp [skipBlanks, h]

theorem endsNumber_cons {c : Char} (rest : List Char)
    (h : isDigit c = false ∧ c ≠ '.' ∧ c ≠ 'e' ∧ c ≠ 'E') : EndsNumber (c :: rest) := by
  intro d hd
  rw [List.head?_cons, Option.mem_some_iff] at hd
  rw [← hd]
  exact h

/-- A number is read as one: it begins like nothing else. -/
theorem readValue_natural {literal rest : List Char} (h : IsNatural literal)
    (hrest : EndsNumber rest) (fuel : Nat) :
    readValue (fuel + 1) (literal ++ rest) = some (.num literal, rest) := by
  have hnumber := readNumber_natural h hrest
  obtain ⟨hne, hdigits, _⟩ := h
  cases hlit : literal with
  | nil => exact absurd hlit hne
  | cons c cs =>
      have hc : isDigit c = true := hdigits c (by simp [hlit])
      rw [hlit, List.cons_append] at hnumber
      rw [List.cons_append, readValue, skipBlanks_of_head (isBlank_of_isDigit hc)]
      split
      · rename_i heq
        rw [(List.cons.inj heq).1] at hc
        exact absurd hc (by decide)
      · rename_i heq
        rw [(List.cons.inj heq).1] at hc
        exact absurd hc (by decide)
      · rename_i heq
        rw [(List.cons.inj heq).1] at hc
        exact absurd hc (by decide)
      · rename_i heq
        rw [(List.cons.inj heq).1] at hc
        exact absurd hc (by decide)
      · rename_i heq
        rw [(List.cons.inj heq).1] at hc
        exact absurd hc (by decide)
      · rename_i heq
        rw [(List.cons.inj heq).1] at hc
        exact absurd hc (by decide)
      · rw [hnumber]
        rfl

section Roundtrip

variable {escape : Char → List Char}

/-- The name of a field and the colon behind it. -/
theorem readFields_name (h : Escapes escape) (name : String) (cs : List Char) (fuel : Nat) :
    readFields (fuel + 1) (quote escape name ++ ':' :: cs) = (do
      let (value, cs) ← readValue fuel cs
      match skipBlanks cs with
      | ',' :: cs => do
        let (fields, rest) ← readFields fuel cs
        return ((name, value) :: fields, rest)
      | '}' :: rest => some ([(name, value)], rest)
      | _ => none) := by
  have hquote : quote escape name ++ ':' :: cs =
      '"' :: (name.toList.flatMap escape ++ '"' :: ':' :: cs) := by simp [quote]
  rw [hquote, readFields, skipBlanks_of_head (by decide)]
  simp only [List.head?_cons, List.tail_cons, readString_quote h]
  simp [skipBlanks_of_head (show isBlank ':' = false by decide)]

mutual

/-- **Roundtrip**: a value that was written reads back. -/
theorem readValue_print (h : Escapes escape) (value : Json) (hnat : value.Naturals) (fuel : Nat)
    (rest : List Char) (hrest : EndsNumber rest) (hfuel : (value.print escape).length ≤ fuel) :
    readValue fuel (value.print escape ++ rest) = some (value, rest) := by
  obtain ⟨c, cs, hhead, _⟩ := @print_head escape value hnat
  cases fuel with
  | zero => simp [hhead] at hfuel
  | succ fuel =>
      cases value with
      | null => simp [print, readValue, skipBlanks_of_head (show isBlank 'n' = false by decide)]
      | bool b =>
          cases b with
          | true => simp [print, readValue, skipBlanks_of_head (show isBlank 't' = false by decide)]
          | false =>
              simp [print, readValue, skipBlanks_of_head (show isBlank 'f' = false by decide)]
      | num literal =>
          rw [print]
          exact readValue_natural hnat hrest fuel
      | str s =>
          have hquote : quote escape s ++ rest =
              '"' :: (s.toList.flatMap escape ++ '"' :: rest) := by simp [quote]
          rw [print, hquote, readValue, skipBlanks_of_head (by decide)]
          simp [readString_quote h]
      | arr items =>
          rw [print, List.cons_append, readValue, skipBlanks_of_head (by decide)]
          simp only [List.append_assoc, List.singleton_append]
          cases items with
          | nil =>
              simp [printItems, skipBlanks_of_head (show isBlank ']' = false by decide)]
          | cons item items =>
              rw [print, List.length_cons, List.length_append, List.length_singleton] at hfuel
              have hread := readItems_print h (item :: items) (by simp) hnat fuel rest (by omega)
              obtain ⟨d, ds, hd, hblank, hclose⟩ := @printItems_head escape item items hnat.1
              rw [hd, List.cons_append] at hread ⊢
              rw [skipBlanks_of_head hblank, if_neg (by simpa using hclose), hread]
              rfl
      | obj fields =>
          rw [print, List.cons_append, readValue, skipBlanks_of_head (by decide)]
          simp only [List.append_assoc, List.singleton_append]
          cases fields with
          | nil =>
              simp [printFields, skipBlanks_of_head (show isBlank '}' = false by decide)]
          | cons field fields =>
              rw [print, List.length_cons, List.length_append] at hfuel
              have hread := readFields_print h (field :: fields) (by simp) hnat fuel rest (by omega)
              obtain ⟨ds, hd⟩ : ∃ ds, printFields escape (field :: fields) = '"' :: ds := by
                cases fields <;> exact ⟨_, rfl⟩
              rw [hd, List.cons_append] at hread ⊢
              rw [skipBlanks_of_head (by decide), if_neg (by simp), hread]
              rfl

theorem readFields_print (h : Escapes escape) (fields : List (String × Json)) (hne : fields ≠ [])
    (hnat : FieldNaturals fields) (fuel : Nat) (rest : List Char)
    (hfuel : (printFields escape fields).length ≤ fuel) :
    readFields fuel (printFields escape fields ++ '}' :: rest) = some (fields, rest) := by
  match fields, hne with
  | [(name, value)], _ =>
      cases fuel with
      | zero => simp [printFields, quote] at hfuel
      | succ fuel =>
          have hvalue := readValue_print h value hnat.1 fuel ('}' :: rest)
            (endsNumber_cons rest (by decide)) (by
              simp only [printFields, quote, List.length_append, List.length_cons] at hfuel
              omega)
          rw [printFields, List.append_assoc, List.cons_append, readFields_name h, hvalue]
          simp [skipBlanks_of_head (show isBlank '}' = false by decide)]
  | (name, value) :: next :: others, _ =>
      cases fuel with
      | zero => simp [printFields, quote] at hfuel
      | succ fuel =>
          have hlength : (print escape value).length ≤ fuel ∧
              (printFields escape (next :: others)).length ≤ fuel := by
            simp only [printFields, quote, List.length_append, List.length_cons] at hfuel
            omega
          have hothers := readFields_print h (next :: others) (by simp) hnat.2 fuel rest hlength.2
          have hvalue := readValue_print h value hnat.1 fuel
            (',' :: (printFields escape (next :: others) ++ '}' :: rest))
            (endsNumber_cons _ (by decide)) hlength.1
          rw [printFields, List.append_assoc, List.cons_append, List.append_assoc,
            List.cons_append, readFields_name h, hvalue]
          simp [skipBlanks_of_head (show isBlank ',' = false by decide), hothers]

theorem readItems_print (h : Escapes escape) (items : List Json) (hne : items ≠ [])
    (hnat : ItemNaturals items) (fuel : Nat) (rest : List Char) (hfuel : (printItems escape items).length < fuel) :
    readItems fuel (printItems escape items ++ ']' :: rest) = some (items, rest) := by
  match items, hne with
  | [value], _ =>
      cases fuel with
      | zero => simp at hfuel
      | succ fuel =>
          have hvalue := readValue_print h value hnat.1 fuel (']' :: rest)
            (endsNumber_cons rest (by decide)) (by
              rw [printItems] at hfuel
              omega)
          rw [printItems, readItems, hvalue]
          simp [skipBlanks_of_head (show isBlank ']' = false by decide)]
  | value :: next :: others, _ =>
      cases fuel with
      | zero => simp at hfuel
      | succ fuel =>
          have hlength : (print escape value).length ≤ fuel ∧
              (printItems escape (next :: others)).length < fuel := by
            simp only [printItems, List.length_append, List.length_cons] at hfuel
            omega
          have hothers := readItems_print h (next :: others) (by simp) hnat.2 fuel rest hlength.2
          have hvalue := readValue_print h value hnat.1 fuel
            (',' :: (printItems escape (next :: others) ++ ']' :: rest))
            (endsNumber_cons _ (by decide)) hlength.1
          rw [printItems, List.append_assoc, List.cons_append, readItems, hvalue]
          simp [skipBlanks_of_head (show isBlank ',' = false by decide), hothers]

end

/-- **Texts**: a text that was written, with blanks behind it or not, reads back. -/
theorem parse_print (h : Escapes escape) {value : Json} (hnat : value.Naturals)
    {blanks : List Char} (hblanks : ∀ c ∈ blanks, isBlank c = true) :
    parse (value.print escape ++ blanks) = some value := by
  have hends : EndsNumber blanks := by
    intro c hc
    have hblank := hblanks c (List.mem_of_mem_head? hc)
    simp only [isBlank, Bool.or_eq_true, decide_eq_true_eq] at hblank
    rcases hblank with ((rfl | rfl) | rfl) | rfl <;> decide
  have hskip : skipBlanks blanks = [] := List.dropWhile_eq_nil_iff.mpr hblanks
  have hread := readValue_print h value hnat ((value.print escape ++ blanks).length + 1) blanks
    hends (by rw [List.length_append]; omega)
  rw [parse, hread]
  simp [hskip]

/-! ## What a written text looks like -/

theorem quote_visible (h : Escapes escape) (s : String) :
    ∀ c ∈ quote escape s, 0x20 ≤ c.toNat := by
  intro c hc
  rw [quote, List.mem_cons, List.mem_append, List.mem_flatMap, List.mem_singleton] at hc
  rcases hc with rfl | ⟨d, _, hmem⟩ | rfl
  · decide
  · exact h.visible d c hmem
  · decide

private theorem visible_of_isDigit {c : Char} (h : isDigit c = true) : 0x20 ≤ c.toNat := by
  simp only [isDigit, Bool.and_eq_true, decide_eq_true_eq] at h
  have hle : '0'.toNat ≤ c.toNat := h.1
  exact (show 0x20 ≤ '0'.toNat by decide).trans hle

mutual

/-- Nothing that is written is a control character. -/
theorem print_visible (h : Escapes escape) (value : Json) (hnat : value.Naturals) :
    ∀ c ∈ value.print escape, 0x20 ≤ c.toNat := by
  cases value with
  | null => simp [print]
  | bool b => cases b <;> simp [print]
  | num literal =>
      intro c hc
      rw [print] at hc
      exact visible_of_isDigit (hnat.2.1 c hc)
  | str s => exact quote_visible h s
  | arr items =>
      intro c hc
      rw [print, List.mem_cons, List.mem_append, List.mem_singleton] at hc
      rcases hc with rfl | hmem | rfl
      · decide
      · exact printItems_visible h items hnat c hmem
      · decide
  | obj fields =>
      intro c hc
      rw [print, List.mem_cons, List.mem_append, List.mem_singleton] at hc
      rcases hc with rfl | hmem | rfl
      · decide
      · exact printFields_visible h fields hnat c hmem
      · decide

theorem printItems_visible (h : Escapes escape) (items : List Json) (hnat : ItemNaturals items) :
    ∀ c ∈ printItems escape items, 0x20 ≤ c.toNat := by
  match items with
  | [] => simp [printItems]
  | [value] => exact print_visible h value hnat.1
  | value :: next :: rest =>
      intro c hc
      rw [printItems, List.mem_append, List.mem_cons] at hc
      rcases hc with hmem | rfl | hmem
      · exact print_visible h value hnat.1 c hmem
      · decide
      · exact printItems_visible h (next :: rest) hnat.2 c hmem

theorem printFields_visible (h : Escapes escape) (fields : List (String × Json))
    (hnat : FieldNaturals fields) : ∀ c ∈ printFields escape fields, 0x20 ≤ c.toNat := by
  match fields with
  | [] => simp [printFields]
  | [(name, value)] =>
      intro c hc
      rw [printFields, List.mem_append, List.mem_cons] at hc
      rcases hc with hmem | rfl | hmem
      · exact quote_visible h name c hmem
      · decide
      · exact print_visible h value hnat.1 c hmem
  | (name, value) :: next :: rest =>
      intro c hc
      rw [printFields, List.mem_append, List.mem_cons, List.mem_append, List.mem_cons] at hc
      rcases hc with hmem | rfl | hmem | rfl | hmem
      · exact quote_visible h name c hmem
      · decide
      · exact print_visible h value hnat.1 c hmem
      · decide
      · exact printFields_visible h (next :: rest) hnat.2 c hmem

end

theorem length_quote_le (h : Escapes escape) (s : String) :
    (quote escape s).length ≤ 6 * s.length + 2 := by
  have hle := (length_flatMap_escape_le h s.toList).2
  rw [String.length_toList] at hle
  simp only [quote, List.length_cons, List.length_append, List.length_nil]
  omega

mutual

/-- No writer needs more characters for a value. -/
def bound : Json → Nat
  | .null => 4
  | .bool _ => 5
  | .num literal => literal.length
  | .str s => 6 * s.length + 2
  | .arr items => itemsBound items + 2
  | .obj fields => fieldsBound fields + 2

def itemsBound : List Json → Nat
  | [] => 0
  | value :: rest => bound value + 1 + itemsBound rest

def fieldsBound : List (String × Json) → Nat
  | [] => 0
  | (name, value) :: rest => 6 * name.length + bound value + 4 + fieldsBound rest

end

mutual

theorem length_print_le (h : Escapes escape) (value : Json) :
    (value.print escape).length ≤ value.bound := by
  cases value with
  | null => simp [print, bound]
  | bool b => cases b <;> simp [print, bound]
  | num literal => simp [print, bound]
  | str s => exact length_quote_le h s
  | arr items =>
      have hitems := length_printItems_le h items
      simp only [print, bound, List.length_cons, List.length_append, List.length_nil]
      omega
  | obj fields =>
      have hfields := length_printFields_le h fields
      simp only [print, bound, List.length_cons, List.length_append, List.length_nil]
      omega

theorem length_printItems_le (h : Escapes escape) (items : List Json) :
    (printItems escape items).length ≤ itemsBound items := by
  match items with
  | [] => simp [printItems]
  | [value] =>
      have hvalue := length_print_le h value
      simp only [printItems, itemsBound]
      omega
  | value :: next :: rest =>
      have hvalue := length_print_le h value
      have hrest := length_printItems_le h (next :: rest)
      rw [printItems, itemsBound, List.length_append, List.length_cons]
      omega

theorem length_printFields_le (h : Escapes escape) (fields : List (String × Json)) :
    (printFields escape fields).length ≤ fieldsBound fields := by
  match fields with
  | [] => simp [printFields]
  | [(name, value)] =>
      have hname := length_quote_le h name
      have hvalue := length_print_le h value
      simp only [printFields, fieldsBound, List.length_append, List.length_cons]
      omega
  | (name, value) :: next :: rest =>
      have hname := length_quote_le h name
      have hvalue := length_print_le h value
      have hrest := length_printFields_le h (next :: rest)
      rw [printFields, fieldsBound]
      simp only [List.length_append, List.length_cons]
      omega

end

end Roundtrip

/-! ## Bytes of texts -/

theorem fromUTF8?_toByteArray (s : String) : String.fromUTF8? s.toByteArray = some s := by
  rw [String.fromUTF8?, dif_pos s.isValidUTF8]
  rfl

/-- A character takes one to four bytes. -/
theorem size_toByteArray (cs : List Char) :
    cs.length ≤ (String.ofList cs).toByteArray.size ∧
      (String.ofList cs).toByteArray.size ≤ 4 * cs.length := by
  have hsize : (String.ofList cs).toByteArray.size =
      (cs.flatMap String.utf8EncodeChar).length := by simp [String.ofList, List.utf8Encode]
  rw [hsize]
  clear hsize
  induction cs with
  | nil => simp
  | cons c cs ih =>
      have hpos := c.utf8Size_pos
      have hle := c.utf8Size_le_four
      simp only [List.flatMap_cons, List.length_append, List.length_cons,
        String.length_utf8EncodeChar]
      omega

/-! ## Escapes -/

/-- A code unit in hexadecimal. -/
def unicodeEscape (n : Nat) : List Char :=
  ['\\', 'u', Nat.digitChar (n / 4096), Nat.digitChar (n / 256 % 16),
    Nat.digitChar (n / 16 % 16), Nat.digitChar (n % 16)]

/-- The writers escape quotes, backslashes, and some control characters by a
letter; what else they escape, they escape in hexadecimal. -/
def escapeChar (long : Char → Bool) (c : Char) : List Char :=
  if c = '"' then ['\\', '"']
  else if c = '\\' then ['\\', '\\']
  else if c = '\n' then ['\\', 'n']
  else if c = '\r' then ['\\', 'r']
  else if c = '\t' then ['\\', 't']
  else if c = Char.ofNat 8 then ['\\', 'b']
  else if c = Char.ofNat 12 then ['\\', 'f']
  else if long c then unicodeEscape c.toNat
  else [c]

private theorem hexValue?_digitChar : ∀ d < 16, hexValue? (Nat.digitChar d) = some d := by decide

private theorem digitChar_visible : ∀ d < 16, 0x20 ≤ (Nat.digitChar d).toNat := by decide

theorem readUnit_unicodeEscape {n : Nat} (h : n < 0x10000) (rest : List Char) :
    readUnit (unicodeEscape n ++ rest) = some (.inr n, rest) := by
  have hsum : ((n / 4096 * 16 + n / 256 % 16) * 16 + n / 16 % 16) * 16 + n % 16 = n := by omega
  simp only [unicodeEscape, List.cons_append, List.nil_append, readUnit,
    hexValue?_digitChar (n / 4096) (by omega), hexValue?_digitChar (n / 256 % 16) (by omega),
    hexValue?_digitChar (n / 16 % 16) (by omega), hexValue?_digitChar (n % 16) (by omega)]
  simp [hsum]

/-- Control characters have to be escaped, and nothing that takes two code units. -/
theorem escapes_escapeChar {long : Char → Bool} (hcontrol : ∀ c, c.toNat < 0x20 → long c = true)
    (hlong : ∀ c, long c = true → c.toNat < 0xD800) : Escapes (escapeChar long) where
  reads := by
    intro c rest
    by_cases hshort : c = '"' ∨ c = '\\' ∨ c = '\n' ∨ c = '\r' ∨ c = '\t' ∨
        c = Char.ofNat 8 ∨ c = Char.ofNat 12
    · left
      rcases hshort with rfl | rfl | rfl | rfl | rfl | rfl | rfl <;> rfl
    · simp only [not_or] at hshort
      obtain ⟨hquote, hslash, hn, hr, ht, hb, hf⟩ := hshort
      rw [escapeChar, if_neg hquote, if_neg hslash, if_neg hn, if_neg hr, if_neg ht, if_neg hb,
        if_neg hf]
      by_cases hc : long c = true
      · right
        have hsmall := hlong c hc
        rw [if_pos hc]
        exact ⟨hsmall, readUnit_unicodeEscape (by omega) rest⟩
      · left
        have hvisible : ¬ c.toNat < 0x20 := fun hlt => hc (hcontrol c hlt)
        rw [if_neg hc, List.singleton_append, readUnit.eq_def]
        split
        · simp_all
        · simp_all
        · rename_i heq
          obtain ⟨rfl, rfl⟩ := List.cons.inj heq
          rw [if_neg (by tauto)]
        · simp_all
  head := by
    intro c
    unfold escapeChar unicodeEscape
    split_ifs with hquote <;> exact ⟨_, _, rfl, by first | decide | assumption⟩
  visible := by
    intro c d hd
    by_cases hc : long c = true
    · have hsmall := hlong c hc
      have h1 := digitChar_visible (c.toNat / 4096) (by omega)
      have h2 := digitChar_visible (c.toNat / 256 % 16) (by omega)
      have h3 := digitChar_visible (c.toNat / 16 % 16) (by omega)
      have h4 := digitChar_visible (c.toNat % 16) (by omega)
      unfold escapeChar unicodeEscape at hd
      rw [if_pos hc] at hd
      split_ifs at hd <;> simp only [List.mem_cons, List.not_mem_nil, or_false] at hd <;>
        rcases hd with rfl | rfl | rfl | rfl | rfl | rfl <;> first | decide | assumption
    · have hvisible : ¬ c.toNat < 0x20 := fun hlt => hc (hcontrol c hlt)
      unfold escapeChar at hd
      rw [if_neg hc] at hd
      split_ifs at hd <;> simp only [List.mem_cons, List.not_mem_nil, or_false] at hd <;>
        rcases hd with rfl | rfl <;> first | decide | omega
  length_le := by
    intro c
    unfold escapeChar unicodeEscape
    split_ifs <;> simp

/-! ## JavaScript -/

/-- The number a literal stands for. -/
def numberValue (literal : List Char) : Rat :=
  let negative := literal.head? = some '-'
  let body := if negative then literal.tail else literal
  let rest := body.dropWhile isDigit
  let fraction := if rest.head? = some '.' then rest.tail.takeWhile isDigit else []
  let exponent := (rest.dropWhile fun c => c ≠ 'e' && c ≠ 'E').drop 1
  let power : Int := ((readDigits 0 (exponent.filter isDigit)).getD 0 : Nat)
  let mantissa : Rat := ((readDigits 0 (body.takeWhile isDigit ++ fraction)).getD 0 : Nat)
  let value := mantissa *
    (10 : Rat) ^ ((if exponent.head? = some '-' then -power else power) - (fraction.length : Int))
  if negative then -value else value

/-- The own fields after one more: a name that is there keeps its place. -/
def assign (fields : List (String × JsValue)) (name : String) (value : JsValue) :
    List (String × JsValue) :=
  if hasOwn fields name then fields.map fun f => if f.1 = name then (name, value) else f
  else fields ++ [(name, value)]

mutual

def toJsValue : Json → JsValue
  | .null => .null
  | .bool b => .bool b
  | .num literal => .num (numberValue literal)
  | .str s => .str s
  | .arr items => .arr (toJsItems items)
  | .obj fields => .obj (toJsFields [] fields)

def toJsItems : List Json → List JsValue
  | [] => []
  | value :: rest => toJsValue value :: toJsItems rest

def toJsFields (made : List (String × JsValue)) : List (String × Json) → List (String × JsValue)
  | [] => made
  | (name, value) :: rest => toJsFields (assign made name (toJsValue value)) rest

end

/-- What `JSON.stringify` writes for a character. -/
def stringifyChar : Char → List Char := escapeChar fun c => c.toNat < 0x20

theorem escapes_stringifyChar : Escapes stringifyChar :=
  escapes_escapeChar (by simp) fun c hc => by
    have hsmall : c.toNat < 0x20 := by simpa using hc
    omega

/-- `JSON.stringify` of a value without `undefined`. -/
def stringify (value : Json) : List Char := value.print stringifyChar

/-- `JSON.parse`. -/
def parseJs (text : List Char) : Option JsValue := (parse text).map toJsValue

end Json

/-- `TextDecoder("utf-8", { fatal: true })`, which drops a byte order mark. -/
def decodeUtf8 (bytes : ByteArray) : Option String :=
  (String.fromUTF8? bytes).map fun text =>
    if text.toList.head? = some (Char.ofNat 0xFEFF) then String.ofList text.toList.tail else text

end AtlasManager.Lib
