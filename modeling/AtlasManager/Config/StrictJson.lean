import AtlasManager.Lib.Js
import AtlasManager.Lib.Rfc8259

/-!
# AtlasManager.Config.StrictJson

The strict decoder of JSON texts, and what it accepts.

* `parseStrictJson` -- the decoder of the source, over what is left of the text;
* `parse_append_ne_ok` -- a text that is accepted is not accepted with a value behind it;
* `jsonParse_eq_some` -- without its two checks it is the parser of the host;
* `parseStrictJson_exact` -- it accepts the texts of the grammar whose objects have
  no name twice and whose numbers are finite, and reads them as the host does.
-/

namespace AtlasManager.Config

open AtlasManager.Lib AtlasManager.Lib.Rfc8259

/-! ## The decoder -/

inductive StrictJsonDecodeErrorCode where
  | invalidJson
  | duplicateField
  deriving DecidableEq, Repr

def skipWhitespace (text : Text) : Text := text.dropWhile isWhitespace

def consume (c : CodeUnit) : Text → Option Text
  | d :: rest => if d = c then some rest else none
  | [] => none

/-- The part of a string up to its closing quote, behind the opening one. -/
def scanString : Text → Option (Text × Text)
  | [] => none
  | c :: rest =>
    if c = 0x22 then some ([c], rest)
    else if c = 0x5C then
      match rest with
      | [] => none
      | e :: rest =>
        if e = unit 'u' then
          match rest with
          | h₁ :: h₂ :: h₃ :: h₄ :: rest =>
            (scanString rest).map fun s => (c :: e :: h₁ :: h₂ :: h₃ :: h₄ :: s.1, s.2)
          | _ => none
        else (scanString rest).map fun s => (c :: e :: s.1, s.2)
    else if c < 0x20 then none
    else (scanString rest).map fun s => (c :: s.1, s.2)

/-- The characters of a string literal behind its opening quote. -/
def literalChars : Text → Option Text
  | [] => none
  | c :: rest =>
    if c = 0x22 then if rest = [] then some [] else none
    else if c = 0x5C then
      match rest with
      | [] => none
      | e :: rest =>
        if e = unit 'u' then
          match rest with
          | h₁ :: h₂ :: h₃ :: h₄ :: rest => do
            let d₁ ← hexDigit? h₁
            let d₂ ← hexDigit? h₂
            let d₃ ← hexDigit? h₃
            let d₄ ← hexDigit? h₄
            let chars ← literalChars rest
            return (((d₁ * 16 + d₂) * 16 + d₃) * 16 + d₄) :: chars
          | _ => none
        else do
          let c ← escapes.lookup e
          let chars ← literalChars rest
          return c :: chars
    else if c < 0x20 then none
    else (literalChars rest).map (c :: ·)

/-- `JSON.parse` of a slice that begins with a quote. -/
def parseStringLiteral : Text → Option Text
  | [] => none
  | q :: rest => if q = 0x22 then literalChars rest else none

def parseString : Text → Except StrictJsonDecodeErrorCode (Text × Text)
  | [] => .error .invalidJson
  | q :: rest =>
    match scanString rest with
    | none => .error .invalidJson
    | some (slice, rest) =>
      match parseStringLiteral (q :: slice) with
      | some s => .ok (s, rest)
      | none => .error .invalidJson

/-! ### Numbers, part by part of the pattern -/

/-- `(?:0|[1-9]\d*)` -/
def matchInt : Text → Option (Text × Text)
  | [] => none
  | d :: rest =>
    if d = unit '0' then some ([d], rest)
    else if isDigit d then some (d :: rest.takeWhile isDigit, rest.dropWhile isDigit)
    else none

/-- `(?:\.\d+)?` -/
def matchFrac (text : Text) : Text × Text :=
  match consume (unit '.') text with
  | none => ([], text)
  | some rest =>
    if rest.takeWhile isDigit = [] then ([], text)
    else (unit '.' :: rest.takeWhile isDigit, rest.dropWhile isDigit)

/-- `(?:[eE][+-]?\d+)?` -/
def matchExp (text : Text) : Text × Text :=
  match text with
  | [] => ([], text)
  | e :: rest =>
    if e = unit 'e' ∨ e = unit 'E' then
      let sign := (rest.take 1).filter fun s => s = unit '+' ∨ s = unit '-'
      let rest := rest.drop sign.length
      if rest.takeWhile isDigit = [] then ([], text)
      else (e :: (sign ++ rest.takeWhile isDigit), rest.dropWhile isDigit)
    else ([], text)

/-- The match at the start of a text, and what follows it. -/
def matchNumber (text : Text) : Option (Text × Text) :=
  let sign := (text.take 1).filter fun s => s = unit '-'
  (matchInt (text.drop sign.length)).map fun int =>
    let frac := matchFrac int.2
    let exp := matchExp frac.2
    (sign ++ (int.1 ++ (frac.1 ++ exp.1)), exp.2)

def parseLiteral (literal : List Char) (value : Value) (text : Text) :
    Except StrictJsonDecodeErrorCode (Value × Text) :=
  if (literal.map unit).isPrefixOf text then .ok (value, text.drop literal.length)
  else .error .invalidJson

section Decoder

/- The host's parser goes the same way, without the two checks of the strict decoder. -/
variable (strict : Bool)

def parseNumber (text : Text) : Except StrictJsonDecodeErrorCode (Value × Text) :=
  match matchNumber text with
  | none => .error .invalidJson
  | some (literal, rest) =>
    let value := toNumber literal
    if strict && !value.isFinite then .error .invalidJson else .ok (.num value, rest)

mutual

def parseValue : Nat → Text → Except StrictJsonDecodeErrorCode (Value × Text)
  | 0, _ => .error .invalidJson
  | _ + 1, [] => .error .invalidJson
  | fuel + 1, character :: rest =>
    if character = 0x22 then do
      let (s, rest) ← parseString (character :: rest)
      return (.str s, rest)
    else if character = unit '{' then
      match consume (unit '}') (skipWhitespace rest) with
      | some rest => .ok (.obj [], rest)
      | none => parseObject fuel [] [] (skipWhitespace rest)
    else if character = unit '[' then
      match consume (unit ']') (skipWhitespace rest) with
      | some rest => .ok (.arr [], rest)
      | none => parseArray fuel [] (skipWhitespace rest)
    else if character = unit 't' then
      parseLiteral ['t', 'r', 'u', 'e'] (.bool true) (character :: rest)
    else if character = unit 'f' then
      parseLiteral ['f', 'a', 'l', 's', 'e'] (.bool false) (character :: rest)
    else if character = unit 'n' then
      parseLiteral ['n', 'u', 'l', 'l'] .null (character :: rest)
    else if character = unit '-' || isDigit character then parseNumber strict (character :: rest)
    else .error .invalidJson

/-- The loop of `parseObject`. -/
def parseObject : Nat → List (Text × Value) → List Text → Text →
    Except StrictJsonDecodeErrorCode (Value × Text)
  | 0, _, _, _ => .error .invalidJson
  | fuel + 1, result, fields, text =>
    if (skipWhitespace text).head? ≠ some 0x22 then .error .invalidJson
    else do
      let (key, text) ← parseString (skipWhitespace text)
      if strict && key ∈ fields then .error .duplicateField
      else
        match consume (unit ':') (skipWhitespace text) with
        | none => .error .invalidJson
        | some text => do
          let (value, text) ← parseValue fuel (skipWhitespace text)
          match consume (unit '}') (skipWhitespace text) with
          | some rest => .ok (.obj (assign result key value), rest)
          | none =>
            match consume (unit ',') (skipWhitespace text) with
            | none => .error .invalidJson
            | some rest => parseObject fuel (assign result key value) (key :: fields) rest

/-- The loop of `parseArray`. -/
def parseArray : Nat → List Value → Text → Except StrictJsonDecodeErrorCode (Value × Text)
  | 0, _, _ => .error .invalidJson
  | fuel + 1, result, text => do
    let (value, text) ← parseValue fuel (skipWhitespace text)
    match consume (unit ']') (skipWhitespace text) with
    | some rest => .ok (.arr (result ++ [value]), rest)
    | none =>
      match consume (unit ',') (skipWhitespace text) with
      | none => .error .invalidJson
      | some rest => parseArray fuel (result ++ [value]) rest

end

/-- A text of one value.  The fuel is enough, as `parse_eq_ok` shows. -/
def parse (input : Text) : Except StrictJsonDecodeErrorCode Value := do
  let (value, rest) ← parseValue strict (2 * input.length + 1) (skipWhitespace input)
  if skipWhitespace rest ≠ [] then throw .invalidJson
  return value

end Decoder

def parseStrictJson (input : Text) : Except StrictJsonDecodeErrorCode Value := parse true input

/-- `JSON.parse` -/
def jsonParse (input : Text) : Option Value := (parse false input).toOption

/-! ## Whitespace -/

theorem ws_skipWhitespace (t : Text) : Ws t (skipWhitespace t) := by
  induction t with
  | nil => exact .nil
  | cons c t ih =>
      by_cases hc : isWhitespace c = true
      · rw [skipWhitespace, List.dropWhile_cons_of_pos hc]
        exact .cons hc ih
      · rw [skipWhitespace, List.dropWhile_cons_of_neg hc]
        exact .nil

theorem skipWhitespace_of_ws {t r : Text} (h : Ws t r) : skipWhitespace t = skipWhitespace r := by
  induction h with
  | nil => rfl
  | cons hc _ ih =>
      rw [skipWhitespace, List.dropWhile_cons_of_pos hc]
      exact ih

@[simp] theorem skipWhitespace_idem (t : Text) :
    skipWhitespace (skipWhitespace t) = skipWhitespace t :=
  (skipWhitespace_of_ws (ws_skipWhitespace t)).symm

theorem skipWhitespace_cons {c : CodeUnit} (h : isWhitespace c = false) (t : Text) :
    skipWhitespace (c :: t) = c :: t := by
  rw [skipWhitespace, List.dropWhile_cons_of_neg (by simp [h])]

theorem ws_nil_iff {t : Text} : Ws t [] ↔ skipWhitespace t = [] := by
  constructor
  · intro h
    rw [skipWhitespace_of_ws h]
    rfl
  · intro h
    rw [← h]
    exact ws_skipWhitespace t

theorem ws_length_le {t r : Text} (h : Ws t r) : r.length ≤ t.length := by
  induction h with
  | nil => exact le_refl _
  | cons _ _ ih => exact ih.trans (Nat.le_succ _)

theorem consume_eq_some {c : CodeUnit} {t r : Text} : consume c t = some r ↔ t = c :: r := by
  cases t with
  | nil => simp [consume]
  | cons d t =>
      rw [consume]
      by_cases hd : d = c
      · rw [if_pos hd]
        simp [hd]
      · rw [if_neg hd]
        simp [hd]

theorem consume_eq_none {c : CodeUnit} {t : Text} : consume c t = none ↔ t.head? ≠ some c := by
  cases t with
  | nil => simp [consume]
  | cons d t => simp [consume]

theorem structural_of_consume {c : CodeUnit} {t r : Text}
    (h : consume c (skipWhitespace t) = some r) : Structural c t r := by
  rw [consume_eq_some] at h
  exact ⟨r, h ▸ ws_skipWhitespace t, .nil⟩

theorem structural_skipWhitespace {c : CodeUnit} {t r : Text} (h : Structural c t r) :
    Structural c t (skipWhitespace r) := by
  obtain ⟨u, hbefore, hafter⟩ := h
  refine ⟨u, hbefore, ?_⟩
  rw [← skipWhitespace_of_ws hafter]
  exact ws_skipWhitespace u

/-- Where a structural character is derived, it is consumed. -/
theorem consume_of_structural {c : CodeUnit} {t r : Text} (hc : isWhitespace c = false)
    (h : Structural c t r) :
    ∃ u, consume c (skipWhitespace t) = some u ∧ skipWhitespace u = skipWhitespace r := by
  obtain ⟨u, hbefore, hafter⟩ := h
  refine ⟨u, ?_, skipWhitespace_of_ws hafter⟩
  rw [consume_eq_some, skipWhitespace_of_ws hbefore, skipWhitespace_cons hc]

theorem structural_length_lt {c : CodeUnit} {t r : Text} (h : Structural c t r) :
    r.length < t.length := by
  obtain ⟨u, hbefore, hafter⟩ := h
  have hle := ws_length_le hbefore
  have hle' := ws_length_le hafter
  rw [List.length_cons] at hle
  omega

/-! ## Strings -/

/-- What is scanned is the start of the text. -/
theorem scanString_eq {t slice r : Text} (h : scanString t = some (slice, r)) : t = slice ++ r := by
  fun_induction scanString t generalizing slice with
  | case1 => simp at h
  | case2 =>
      rw [Option.some_inj, Prod.mk.injEq] at h
      rw [← h.1, h.2]
      rfl
  | case3 => simp at h
  | case4 _ _ _ _ rest _ ih =>
      simp only [Option.map_eq_some_iff, Prod.mk.injEq] at h
      obtain ⟨⟨s, u⟩, hs, rfl, rfl⟩ := h
      simp [ih hs]
  | case5 => simp at h
  | case6 _ e rest _ ih =>
      simp only [Option.map_eq_some_iff, Prod.mk.injEq] at h
      obtain ⟨⟨s, u⟩, hs, rfl, rfl⟩ := h
      simp [ih hs]
  | case7 => simp at h
  | case8 c rest _ _ _ ih =>
      simp only [Option.map_eq_some_iff, Prod.mk.injEq] at h
      obtain ⟨⟨s, u⟩, hs, rfl, rfl⟩ := h
      simp [ih hs]

theorem mem_escapes_of_lookup {e c : CodeUnit} (h : escapes.lookup e = some c) :
    (e, c) ∈ escapes := by
  obtain ⟨before, behind, hsplit, -⟩ := List.lookup_eq_some_iff.mp h
  rw [hsplit]
  simp

theorem lookup_of_mem_escapes {e c : CodeUnit} (h : (e, c) ∈ escapes) :
    escapes.lookup e = some c ∧ e ≠ unit 'u' := by
  have hall : ∀ p ∈ escapes, escapes.lookup p.1 = some p.2 ∧ p.1 ≠ unit 'u' := by
    simp [escapes, unit, List.lookup]
  exact hall (e, c) h

/-- What the host reads in a literal is derived. -/
theorem isChars_of_literalChars {slice s : Text} (h : literalChars slice = some s) (r : Text) :
    IsChars (slice ++ r) s (0x22 :: r) := by
  fun_induction literalChars slice generalizing s with
  | case1 => simp at h
  | case2 =>
      rw [Option.some_inj] at h
      rw [← h]
      exact .nil
  | case3 => simp at h
  | case4 => simp at h
  | case5 _ _ _ _ rest _ ih =>
      simp only [Option.bind_eq_bind, Option.bind_eq_some_iff, Option.pure_def, Option.some_inj] at h
      obtain ⟨d₁, h₁, d₂, h₂, d₃, h₃, d₄, h₄, chars, hchars, rfl⟩ := h
      exact .cons (.hex h₁ h₂ h₃ h₄) (ih hchars)
  | case6 => simp at h
  | case7 _ e rest _ ih =>
      simp only [Option.bind_eq_bind, Option.bind_eq_some_iff, Option.pure_def, Option.some_inj] at h
      obtain ⟨c, hc, chars, hchars, rfl⟩ := h
      exact .cons (.escaped (mem_escapes_of_lookup hc)) (ih hchars)
  | case8 => simp at h
  | case9 c rest hquote hescape hcontrol ih =>
      rw [Option.map_eq_some_iff] at h
      obtain ⟨chars, hchars, rfl⟩ := h
      exact .cons (.unescaped (UInt16.not_lt.mp hcontrol) hquote hescape) (ih hchars)

/-- What is derived is scanned to its end, and the host reads it. -/
theorem scanString_of_isChars {t s r : Text} (h : IsChars t s (0x22 :: r)) :
    ∃ slice, scanString t = some (slice, r) ∧ literalChars slice = some s ∧ slice ≠ [] := by
  generalize hend : (0x22 : CodeUnit) :: r = e at h
  induction h with
  | nil =>
      rw [← hend]
      exact ⟨[0x22], by rw [scanString.eq_def]; simp, by rw [literalChars.eq_def]; simp, by simp⟩
  | cons hchar hchars ih =>
      obtain ⟨slice, hscan, hread, hne⟩ := ih hend
      cases hchar with
      | unescaped hcontrol hquote hescape =>
          rename_i c cs
          have hvisible : ¬ c < 0x20 := UInt16.not_lt.mpr hcontrol
          refine ⟨c :: slice, ?_, ?_, by simp⟩
          · rw [scanString.eq_def]
            simp [hquote, hescape, hvisible, hscan]
          · rw [literalChars.eq_def]
            simp [hquote, hescape, hvisible, hread]
      | escaped hmem =>
          rename_i e
          obtain ⟨hlookup, hnot⟩ := lookup_of_mem_escapes hmem
          refine ⟨0x5C :: e :: slice, ?_, ?_, by simp⟩
          · rw [scanString.eq_def]
            simp [hnot, hscan]
          · rw [literalChars.eq_def]
            simp [hnot, hlookup, hread]
      | hex hd₁ hd₂ hd₃ hd₄ =>
          rename_i h₁ h₂ h₃ h₄ _ _ _ _
          refine ⟨0x5C :: unit 'u' :: h₁ :: h₂ :: h₃ :: h₄ :: slice, ?_, ?_, by simp⟩
          · rw [scanString.eq_def]
            simp [hscan]
          · rw [literalChars.eq_def]
            simp [hd₁, hd₂, hd₃, hd₄, hread]

theorem parseString_iff {t s r : Text} : parseString t = .ok (s, r) ↔ IsString t s r := by
  constructor
  · intro h
    cases t with
    | nil => simp [parseString] at h
    | cons q t =>
        rw [parseString] at h
        cases hscan : scanString t with
        | none => simp [hscan] at h
        | some found =>
            obtain ⟨slice, u⟩ := found
            simp only [hscan, parseStringLiteral] at h
            by_cases hquote : q = 0x22
            · rw [if_pos hquote] at h
              cases hread : literalChars slice with
              | none => simp [hread] at h
              | some chars =>
                  simp only [hread, Except.ok.injEq, Prod.mk.injEq] at h
                  rw [hquote, scanString_eq hscan, ← h.1, ← h.2]
                  exact .quoted (isChars_of_literalChars hread u)
            · simp [if_neg hquote] at h
  · intro h
    cases h with
    | quoted hchars =>
        obtain ⟨slice, hscan, hread, -⟩ := scanString_of_isChars hchars
        simp [parseString, hscan, parseStringLiteral, hread]

theorem isChars_length_le {t s r : Text} (h : IsChars t s r) : r.length ≤ t.length := by
  induction h with
  | nil => exact le_refl _
  | cons hchar _ ih =>
      cases hchar <;> simp only [List.length_cons] at * <;> omega

theorem isString_length_lt {t s r : Text} (h : IsString t s r) : r.length < t.length := by
  cases h with
  | quoted hchars =>
      have hle := isChars_length_le hchars
      simp only [List.length_cons] at *
      omega

/-! ## Numbers -/

/-- What follows is no further digit. -/
def EndsDigits (r : Text) : Prop := ∀ c ∈ r.head?, isDigit c = false

/-- What follows goes on with no part of a number. -/
def EndsNumber (r : Text) : Prop :=
  ∀ c ∈ r.head?, isDigit c = false ∧ c ≠ unit '.' ∧ c ≠ unit 'e' ∧ c ≠ unit 'E'

theorem isDigits_takeWhile {t : Text} (h : t.takeWhile isDigit ≠ []) :
    IsDigits (t.takeWhile isDigit) :=
  ⟨h, fun _ hc => List.mem_takeWhile_imp hc⟩

theorem takeWhile_digits {ds r : Text} (hds : ∀ c ∈ ds, isDigit c = true) (hr : EndsDigits r) :
    (ds ++ r).takeWhile isDigit = ds ∧ (ds ++ r).dropWhile isDigit = r := by
  have hstop : r.takeWhile isDigit = [] ∧ r.dropWhile isDigit = r := by
    cases r with
    | nil => simp
    | cons c r =>
        have hc := hr c (by simp)
        simp [hc]
  rw [List.takeWhile_append_of_pos hds, List.dropWhile_append_of_pos hds, hstop.1, hstop.2]
  simp

theorem matchInt_sound {t i r : Text} (h : matchInt t = some (i, r)) : t = i ++ r ∧ IsInt i := by
  cases t with
  | nil => simp [matchInt] at h
  | cons d t =>
      rw [matchInt] at h
      by_cases hzero : d = unit '0'
      · rw [if_pos hzero, Option.some_inj, Prod.mk.injEq] at h
        rw [← h.1, h.2, hzero]
        exact ⟨rfl, .zero⟩
      · rw [if_neg hzero] at h
        by_cases hdigit : isDigit d = true
        · rw [if_pos hdigit, Option.some_inj, Prod.mk.injEq] at h
          rw [← h.1, ← h.2, List.cons_append, List.takeWhile_append_dropWhile]
          exact ⟨rfl, .nonzero hdigit hzero fun _ hc => List.mem_takeWhile_imp hc⟩
        · simp [hdigit] at h

theorem matchInt_append {i r : Text} (hi : IsInt i) (hr : EndsDigits r) :
    matchInt (i ++ r) = some (i, r) := by
  cases hi with
  | zero => simp [matchInt]
  | nonzero hdigit hzero hds =>
      obtain ⟨htake, hdrop⟩ := takeWhile_digits hds hr
      rw [List.cons_append, matchInt, if_neg hzero, if_pos hdigit, htake, hdrop]

theorem matchFrac_sound (t : Text) :
    t = (matchFrac t).1 ++ (matchFrac t).2 ∧ IsFrac (matchFrac t).1 := by
  rw [matchFrac]
  cases hpoint : consume (unit '.') t with
  | none => exact ⟨rfl, .absent⟩
  | some rest =>
      dsimp only
      by_cases hdigits : rest.takeWhile isDigit = []
      · rw [if_pos hdigits]
        exact ⟨rfl, .absent⟩
      · rw [if_neg hdigits, List.cons_append, List.takeWhile_append_dropWhile]
        exact ⟨consume_eq_some.mp hpoint, .present (isDigits_takeWhile hdigits)⟩

theorem matchFrac_append {f r : Text} (hf : IsFrac f) (hr : EndsDigits r)
    (hpoint : r.head? ≠ some (unit '.')) : matchFrac (f ++ r) = (f, r) := by
  cases hf with
  | absent =>
      rw [List.nil_append, matchFrac, consume_eq_none.mpr hpoint]
  | @present ds hds =>
      obtain ⟨htake, hdrop⟩ := takeWhile_digits hds.2 hr
      rw [List.cons_append, matchFrac, consume_eq_some.mpr rfl]
      dsimp only
      rw [htake, hdrop, if_neg hds.1]

theorem matchExp_sound (t : Text) :
    t = (matchExp t).1 ++ (matchExp t).2 ∧ IsExp (matchExp t).1 := by
  cases t with
  | nil => exact ⟨rfl, .absent⟩
  | cons e rest =>
      rw [matchExp]
      by_cases he : e = unit 'e' ∨ e = unit 'E'
      · rw [if_pos he]
        set sign := (rest.take 1).filter fun s => s = unit '+' ∨ s = unit '-' with hsign
        dsimp only
        by_cases hdigits : (rest.drop sign.length).takeWhile isDigit = []
        · rw [if_pos hdigits]
          exact ⟨rfl, .absent⟩
        · rw [if_neg hdigits]
          have hds := isDigits_takeWhile hdigits
          have hsplit : rest = sign ++ rest.drop sign.length ∧
              (sign = [] ∨ ∃ s, sign = [s] ∧ (s = unit '+' ∨ s = unit '-')) := by
            cases rest with
            | nil => simp [hsign]
            | cons s rest =>
                by_cases hs : s = unit '+' ∨ s = unit '-'
                · have hone : sign = [s] := by simp [hsign, hs]
                  rw [hone]
                  exact ⟨rfl, .inr ⟨s, rfl, hs⟩⟩
                · have hnone : sign = [] := by simp [hsign, hs]
                  rw [hnone]
                  exact ⟨rfl, .inl rfl⟩
          obtain ⟨hrest, hcases⟩ := hsplit
          constructor
          · simp only [List.cons_append, List.append_assoc, List.takeWhile_append_dropWhile]
            rw [← hrest]
          · rcases hcases with hnone | ⟨s, hone, hs⟩
            · rw [hnone] at hds ⊢
              exact .unsigned he hds
            · rw [hone] at hds ⊢
              exact .signed he hs hds
      · rw [if_neg he]
        exact ⟨rfl, .absent⟩

theorem matchExp_append {e r : Text} (he : IsExp e) (hr : EndsNumber r) :
    matchExp (e ++ r) = (e, r) := by
  have hdigits : EndsDigits r := fun c hc => (hr c hc).1
  cases he with
  | absent =>
      cases r with
      | nil => rfl
      | cons c r =>
          obtain ⟨-, -, he, hE⟩ := hr c (by simp)
          rw [List.nil_append, matchExp, if_neg (by simp [he, hE])]
  | @unsigned e ds he hds =>
      obtain ⟨htake, hdrop⟩ := takeWhile_digits hds.2 hdigits
      have hsign : ((ds ++ r).take 1).filter (fun s => s = unit '+' ∨ s = unit '-') = [] := by
        cases ds with
        | nil => exact absurd rfl hds.1
        | cons d ds =>
            have hd := hds.2 d (by simp)
            have hplus : d ≠ unit '+' := by
              rintro rfl
              exact absurd hd (by decide)
            have hminus : d ≠ unit '-' := by
              rintro rfl
              exact absurd hd (by decide)
            simp [hplus, hminus]
      rw [List.cons_append, matchExp, if_pos he]
      simp only [hsign, List.length_nil, List.drop_zero, htake, hdrop, if_neg hds.1, List.nil_append]
  | @signed e s ds he hs hds =>
      obtain ⟨htake, hdrop⟩ := takeWhile_digits hds.2 hdigits
      have hsign : ((s :: (ds ++ r)).take 1).filter (fun s => s = unit '+' ∨ s = unit '-') =
          [s] := by
        simp [hs]
      rw [List.cons_append, List.cons_append, matchExp, if_pos he]
      simp only [hsign, List.length_singleton, List.drop_succ_cons, List.drop_zero, htake, hdrop,
        if_neg hds.1, List.singleton_append]

theorem endsDigits_exp {e r : Text} (he : IsExp e) (hr : EndsNumber r) :
    EndsDigits (e ++ r) ∧ (e ++ r).head? ≠ some (unit '.') := by
  cases he with
  | absent =>
      refine ⟨fun c hc => (hr c hc).1, fun hpoint => ?_⟩
      exact (hr (unit '.') (by rw [List.nil_append] at hpoint; rw [hpoint]; rfl)).2.1 rfl
  | unsigned he _ => rcases he with rfl | rfl <;> simp [EndsDigits] <;> decide
  | signed he _ _ => rcases he with rfl | rfl <;> simp [EndsDigits] <;> decide

theorem endsDigits_frac {f r : Text} (hf : IsFrac f) (hr : EndsDigits r) : EndsDigits (f ++ r) := by
  cases hf with
  | absent => exact hr
  | present _ =>
      simp only [EndsDigits, List.cons_append, List.head?_cons, Option.mem_some_iff]
      rintro c rfl
      decide

/-- The match is a number of the grammar at the start of the text. -/
theorem matchNumber_sound {t literal r : Text} (h : matchNumber t = some (literal, r)) :
    t = literal ++ r ∧ IsNumber literal := by
  rw [matchNumber, Option.map_eq_some_iff] at h
  obtain ⟨⟨i, rest⟩, hint, hparts⟩ := h
  rw [Prod.mk.injEq] at hparts
  obtain ⟨hint, hi⟩ := matchInt_sound hint
  obtain ⟨hfrac, hf⟩ := matchFrac_sound rest
  obtain ⟨hexp, he⟩ := matchExp_sound (matchFrac rest).2
  have hrest : i ++ rest = i ++ ((matchFrac rest).1 ++ (matchExp (matchFrac rest).2).1) ++ r := by
    conv_lhs => rw [hfrac, hexp]
    rw [← hparts.2]
    simp
  cases t with
  | nil =>
      rw [← hparts.1]
      rw [List.take_nil, List.filter_nil, List.length_nil, List.drop_zero] at hint
      rw [List.take_nil, List.filter_nil, List.nil_append, hint]
      exact ⟨hrest, .positive hi hf he⟩
  | cons s t =>
      rw [← hparts.1]
      by_cases hs : s = unit '-'
      · have hsign : ((s :: t).take 1).filter (fun s => s = unit '-') = [s] := by simp [hs]
        rw [hsign] at hint ⊢
        rw [List.length_singleton, List.drop_one, List.tail_cons] at hint
        rw [hs, hint, hrest, List.singleton_append]
        exact ⟨rfl, .negative hi hf he⟩
      · have hsign : ((s :: t).take 1).filter (fun s => s = unit '-') = [] := by simp [hs]
        rw [hsign] at hint ⊢
        rw [List.length_nil, List.drop_zero] at hint
        rw [hint, List.nil_append]
        exact ⟨hrest, .positive hi hf he⟩

/-- A number of the grammar is matched whole, when nothing after it goes on. -/
theorem matchNumber_append {literal r : Text} (h : IsNumber literal) (hr : EndsNumber r) :
    matchNumber (literal ++ r) = some (literal, r) := by
  have hunsigned : ∀ {i f e : Text}, IsInt i → IsFrac f → IsExp e →
      matchInt (i ++ (f ++ (e ++ r))) = some (i, f ++ (e ++ r)) ∧
      matchFrac (f ++ (e ++ r)) = (f, e ++ r) ∧ matchExp (e ++ r) = (e, r) := by
    intro i f e hi hf he
    obtain ⟨hdigits, hpoint⟩ := endsDigits_exp he hr
    exact ⟨matchInt_append hi (endsDigits_frac hf hdigits), matchFrac_append hf hdigits hpoint,
      matchExp_append he hr⟩
  cases h with
  | @positive i f e hi hf he =>
      obtain ⟨hint, hfrac, hexp⟩ := hunsigned hi hf he
      have hsign : ((i ++ (f ++ (e ++ r))).take 1).filter (fun s => s = unit '-') = [] := by
        cases hi with
        | zero => simp [show unit '0' ≠ unit '-' by decide]
        | @nonzero d ds hdigit _ _ =>
            have hminus : d ≠ unit '-' := by
              rintro rfl
              exact absurd hdigit (by decide)
            simp [hminus]
      rw [List.append_assoc, List.append_assoc, matchNumber, hsign]
      simp [hint, hfrac, hexp]
  | @negative i f e hi hf he =>
      obtain ⟨hint, hfrac, hexp⟩ := hunsigned hi hf he
      simp [matchNumber, hint, hfrac, hexp]

/-! ## What is read is derived -/

section Soundness

variable {strict : Bool}

theorem isValue_of_parseLiteral {literal : List Char} {value v : Value} {t r : Text} {tree : Tree}
    (h : parseLiteral literal value t = .ok (v, r))
    (hderived : IsValue (literal.map unit ++ r) tree r) (hvalue : tree.value = value) :
    IsValue t tree r ∧ tree.value = v := by
  rw [parseLiteral] at h
  by_cases hliteral : (literal.map unit).isPrefixOf t = true
  · rw [if_pos hliteral, Except.ok.injEq, Prod.mk.injEq] at h
    obtain ⟨rest, rfl⟩ := List.isPrefixOf_iff_prefix.mp hliteral
    have hrest : (literal.map unit ++ rest).drop literal.length = rest := by
      rw [← List.length_map (f := unit), List.drop_left]
    rw [hrest] at h
    rw [h.2, hvalue]
    exact ⟨hderived, h.1⟩
  · rw [if_neg hliteral] at h
    cases h

theorem isValue_of_parseNumber {v : Value} {t r : Text} (h : parseNumber strict t = .ok (v, r)) :
    ∃ tree, IsValue t tree r ∧ tree.value = v ∧ (strict = true → tree.NamesDistinct ∧
      tree.NumbersFinite) := by
  rw [parseNumber] at h
  cases hmatch : matchNumber t with
  | none => simp [hmatch] at h
  | some found =>
      obtain ⟨literal, rest⟩ := found
      obtain ⟨rfl, hnumber⟩ := matchNumber_sound hmatch
      simp only [hmatch] at h
      by_cases hlarge : (strict && !(toNumber literal).isFinite) = true
      · rw [if_pos hlarge] at h
        cases h
      · rw [if_neg hlarge, Except.ok.injEq, Prod.mk.injEq] at h
        rw [← h.1, ← h.2]
        refine ⟨.num literal, .number hnumber, rfl, fun hstrict => ⟨trivial, ?_⟩⟩
        rw [Tree.NumbersFinite]
        simpa [hstrict] using hlarge

/-- What the three readers read with some fuel is derived. -/
structure Sound (strict : Bool) (fuel : Nat) : Prop where
  value : ∀ {t v r}, parseValue strict fuel t = .ok (v, r) → ∃ tree, IsValue t tree r ∧
    tree.value = v ∧ (strict = true → tree.NamesDistinct ∧ tree.NumbersFinite)
  object : ∀ {made fields t v r}, parseObject strict fuel made fields t = .ok (v, r) →
    ∃ members u, IsMembers (skipWhitespace t) members u ∧ Structural (unit '}') u r ∧
      v = .obj (memberValues made members) ∧
      (strict = true → (members.map Prod.fst).Nodup ∧ (∀ name ∈ fields, name ∉ members.map Prod.fst) ∧
        MemberNamesDistinct members ∧ MemberNumbersFinite members)
  array : ∀ {made t v r}, parseArray strict fuel made t = .ok (v, r) →
    ∃ items u, IsItems (skipWhitespace t) items u ∧ Structural (unit ']') u r ∧
      v = .arr (made ++ values items) ∧
      (strict = true → ItemNamesDistinct items ∧ ItemNumbersFinite items)

variable {fuel : Nat}

theorem Sound.value_succ (h : Sound strict fuel) {t r : Text} {v : Value}
    (hparse : parseValue strict (fuel + 1) t = .ok (v, r)) :
    ∃ tree, IsValue t tree r ∧ tree.value = v ∧
      (strict = true → tree.NamesDistinct ∧ tree.NumbersFinite) := by
  cases t with
  | nil => simp [parseValue] at hparse
  | cons c t =>
      rw [parseValue] at hparse
      by_cases hquote : c = 0x22
      · rw [if_pos hquote] at hparse
        obtain ⟨⟨s, rest⟩, hstring, hparse⟩ := exists_of_bind_ok hparse
        obtain ⟨rfl, rfl⟩ : .str s = v ∧ rest = r := by simpa using Except.ok.inj hparse
        exact ⟨.str s, .string (parseString_iff.mp hstring), rfl, fun _ => ⟨trivial, trivial⟩⟩
      rw [if_neg hquote] at hparse
      by_cases hbrace : c = unit '{'
      · rw [if_pos hbrace] at hparse
        have hopen : Structural (unit '{') (c :: t) (skipWhitespace t) :=
          ⟨t, hbrace ▸ .nil, ws_skipWhitespace t⟩
        cases hclose : consume (unit '}') (skipWhitespace t) with
        | some rest =>
            simp only [hclose, Except.ok.injEq, Prod.mk.injEq] at hparse
            rw [← hparse.1, ← hparse.2]
            have hend := structural_of_consume (t := skipWhitespace t) (by rw [skipWhitespace_idem, hclose])
            exact ⟨.obj [], .emptyObject hopen hend, rfl,
              fun _ => ⟨⟨List.nodup_nil, trivial⟩, trivial⟩⟩
        | none =>
            simp only [hclose] at hparse
            obtain ⟨members, u, hmembers, hend, rfl, hadmitted⟩ := h.object hparse
            rw [skipWhitespace_idem] at hmembers
            refine ⟨.obj members, .object hopen hmembers hend, rfl, fun hstrict => ?_⟩
            obtain ⟨hnodup, -, hnames, hfinite⟩ := hadmitted hstrict
            exact ⟨⟨hnodup, hnames⟩, hfinite⟩
      rw [if_neg hbrace] at hparse
      by_cases hbracket : c = unit '['
      · rw [if_pos hbracket] at hparse
        have hopen : Structural (unit '[') (c :: t) (skipWhitespace t) :=
          ⟨t, hbracket ▸ .nil, ws_skipWhitespace t⟩
        cases hclose : consume (unit ']') (skipWhitespace t) with
        | some rest =>
            simp only [hclose, Except.ok.injEq, Prod.mk.injEq] at hparse
            rw [← hparse.1, ← hparse.2]
            have hend := structural_of_consume (t := skipWhitespace t) (by rw [skipWhitespace_idem, hclose])
            exact ⟨.arr [], .emptyArray hopen hend, rfl, fun _ => ⟨trivial, trivial⟩⟩
        | none =>
            simp only [hclose] at hparse
            obtain ⟨items, u, hitems, hend, rfl, hadmitted⟩ := h.array hparse
            rw [skipWhitespace_idem] at hitems
            exact ⟨.arr items, .array hopen hitems hend, by simp [Tree.value], hadmitted⟩
      rw [if_neg hbracket] at hparse
      by_cases htrue : c = unit 't'
      · rw [if_pos htrue] at hparse
        obtain ⟨hderived, hvalue⟩ := isValue_of_parseLiteral hparse .true rfl
        exact ⟨_, hderived, hvalue, fun _ => ⟨trivial, trivial⟩⟩
      rw [if_neg htrue] at hparse
      by_cases hfalse : c = unit 'f'
      · rw [if_pos hfalse] at hparse
        obtain ⟨hderived, hvalue⟩ := isValue_of_parseLiteral hparse .false rfl
        exact ⟨_, hderived, hvalue, fun _ => ⟨trivial, trivial⟩⟩
      rw [if_neg hfalse] at hparse
      by_cases hnull : c = unit 'n'
      · rw [if_pos hnull] at hparse
        obtain ⟨hderived, hvalue⟩ := isValue_of_parseLiteral hparse .null rfl
        exact ⟨_, hderived, hvalue, fun _ => ⟨trivial, trivial⟩⟩
      rw [if_neg hnull] at hparse
      by_cases hnumber : (decide (c = unit '-') || isDigit c) = true
      · rw [if_pos hnumber] at hparse
        exact isValue_of_parseNumber hparse
      · rw [if_neg hnumber] at hparse
        cases hparse

theorem Sound.object_succ (h : Sound strict fuel) {made : List (Text × Value)} {fields : List Text}
    {t r : Text} {v : Value} (hparse : parseObject strict (fuel + 1) made fields t = .ok (v, r)) :
    ∃ members u, IsMembers (skipWhitespace t) members u ∧ Structural (unit '}') u r ∧
      v = .obj (memberValues made members) ∧
      (strict = true → (members.map Prod.fst).Nodup ∧ (∀ name ∈ fields, name ∉ members.map Prod.fst) ∧
        MemberNamesDistinct members ∧ MemberNumbersFinite members) := by
  rw [parseObject] at hparse
  by_cases hquote : (skipWhitespace t).head? ≠ some 0x22
  · rw [if_pos hquote] at hparse
    cases hparse
  rw [if_neg hquote] at hparse
  obtain ⟨⟨key, afterKey⟩, hkey, hparse⟩ := exists_of_bind_ok hparse
  rw [parseString_iff] at hkey
  dsimp only at hparse
  by_cases hdouble : (strict && decide (key ∈ fields)) = true
  · rw [if_pos hdouble] at hparse
    cases hparse
  rw [if_neg hdouble] at hparse
  have hfresh : strict = true → key ∉ fields := by
    intro hstrict
    simpa [hstrict] using hdouble
  cases hcolon : consume (unit ':') (skipWhitespace afterKey) with
  | none => simp [hcolon] at hparse
  | some afterColon =>
      simp only [hcolon] at hparse
      obtain ⟨⟨value, afterValue⟩, hvalue, hparse⟩ := exists_of_bind_ok hparse
      obtain ⟨tree, hderived, rfl, hadmitted⟩ := h.value hvalue
      have hcolon := structural_skipWhitespace (structural_of_consume hcolon)
      cases hclose : consume (unit '}') (skipWhitespace afterValue) with
      | some rest =>
          simp only [hclose, Except.ok.injEq, Prod.mk.injEq] at hparse
          rw [← hparse.1, ← hparse.2]
          refine ⟨[(key, tree)], afterValue, .one hkey hcolon hderived, structural_of_consume hclose,
            rfl, fun hstrict => ⟨by simp, ?_, ⟨(hadmitted hstrict).1, trivial⟩,
              ⟨(hadmitted hstrict).2, trivial⟩⟩⟩
          intro name hname hsame
          rw [List.map_singleton, List.mem_singleton] at hsame
          rw [show name = key from hsame] at hname
          exact hfresh hstrict hname
      | none =>
          simp only [hclose] at hparse
          cases hcomma : consume (unit ',') (skipWhitespace afterValue) with
          | none => simp [hcomma] at hparse
          | some rest =>
              simp only [hcomma] at hparse
              obtain ⟨members, u, hmembers, hend, rfl, hothers⟩ := h.object hparse
              have hcomma := structural_skipWhitespace (structural_of_consume hcomma)
              refine ⟨(key, tree) :: members, u, .more hkey hcolon hderived hcomma hmembers, hend,
                rfl, fun hstrict => ?_⟩
              obtain ⟨hnodup, hapart, hnames, hfinite⟩ := hothers hstrict
              refine ⟨?_, ?_, ⟨(hadmitted hstrict).1, hnames⟩, ⟨(hadmitted hstrict).2, hfinite⟩⟩
              · rw [List.map_cons, List.nodup_cons]
                exact ⟨hapart key List.mem_cons_self, hnodup⟩
              · intro name hname hsame
                rw [List.map_cons, List.mem_cons] at hsame
                rcases hsame with hsame | hsame
                · rw [show name = key from hsame] at hname
                  exact hfresh hstrict hname
                · exact hapart name (List.mem_cons_of_mem _ hname) hsame

theorem Sound.array_succ (h : Sound strict fuel) {made : List Value} {t r : Text} {v : Value}
    (hparse : parseArray strict (fuel + 1) made t = .ok (v, r)) :
    ∃ items u, IsItems (skipWhitespace t) items u ∧ Structural (unit ']') u r ∧
      v = .arr (made ++ values items) ∧
      (strict = true → ItemNamesDistinct items ∧ ItemNumbersFinite items) := by
  rw [parseArray] at hparse
  obtain ⟨⟨value, afterValue⟩, hvalue, hparse⟩ := exists_of_bind_ok hparse
  obtain ⟨tree, hderived, rfl, hadmitted⟩ := h.value hvalue
  dsimp only at hparse
  cases hclose : consume (unit ']') (skipWhitespace afterValue) with
  | some rest =>
      simp only [hclose, Except.ok.injEq, Prod.mk.injEq] at hparse
      rw [← hparse.1, ← hparse.2]
      exact ⟨[tree], afterValue, .one hderived, structural_of_consume hclose, rfl,
        fun hstrict => ⟨⟨(hadmitted hstrict).1, trivial⟩, ⟨(hadmitted hstrict).2, trivial⟩⟩⟩
  | none =>
      simp only [hclose] at hparse
      cases hcomma : consume (unit ',') (skipWhitespace afterValue) with
      | none => simp [hcomma] at hparse
      | some rest =>
          simp only [hcomma] at hparse
          obtain ⟨items, u, hitems, hend, rfl, hothers⟩ := h.array hparse
          have hcomma := structural_skipWhitespace (structural_of_consume hcomma)
          refine ⟨tree :: items, u, .more hderived hcomma hitems, hend, by simp [values],
            fun hstrict => ?_⟩
          obtain ⟨hnames, hfinite⟩ := hothers hstrict
          exact ⟨⟨(hadmitted hstrict).1, hnames⟩, ⟨(hadmitted hstrict).2, hfinite⟩⟩

/-- **Soundness** of the readers. -/
theorem sound (strict : Bool) (fuel : Nat) : Sound strict fuel := by
  induction fuel with
  | zero =>
      exact ⟨fun h => by simp [parseValue] at h, fun h => by simp [parseObject] at h,
        fun h => by simp [parseArray] at h⟩
  | succ fuel ih => exact ⟨ih.value_succ, ih.object_succ, ih.array_succ⟩

end Soundness

/-! ## What is derived is read -/

section Completeness

variable {strict : Bool} {fuel : Nat}

theorem endsNumber_cons {c : CodeUnit} (h : isDigit c = false ∧ c ≠ unit '.' ∧ c ≠ unit 'e' ∧
    c ≠ unit 'E') (r : Text) : EndsNumber (c :: r) := by
  intro d hd
  rw [List.head?_cons, Option.mem_some_iff] at hd
  rw [← hd]
  exact h

theorem endsNumber_of_isWhitespace {c : CodeUnit} (h : isWhitespace c = true) (r : Text) :
    EndsNumber (c :: r) := by
  simp only [isWhitespace, Bool.or_eq_true, decide_eq_true_eq] at h
  rcases h with ((rfl | rfl) | rfl) | rfl <;> exact endsNumber_cons (by decide) r

/-- A structural character ends a number, also behind whitespace. -/
theorem endsNumber_of_structural {c : CodeUnit} {t r : Text} (hc : isDigit c = false ∧
    c ≠ unit '.' ∧ c ≠ unit 'e' ∧ c ≠ unit 'E') (h : Structural c t r) : EndsNumber t := by
  obtain ⟨u, hbefore, -⟩ := h
  cases hbefore with
  | nil => exact endsNumber_cons hc u
  | cons hspace _ => exact endsNumber_of_isWhitespace hspace _

theorem endsNumber_of_ws_nil {t : Text} (h : Ws t []) : EndsNumber t := by
  cases h with
  | nil => simp [EndsNumber]
  | cons hspace _ => exact endsNumber_of_isWhitespace hspace _

/-- A number begins with a digit or a sign. -/
theorem isNumber_head {literal : Text} (h : IsNumber literal) :
    ∃ c cs, literal = c :: cs ∧ (c = unit '-' ∨ isDigit c = true) := by
  cases h with
  | positive hi _ _ =>
      cases hi with
      | zero => exact ⟨_, _, rfl, .inr (by decide)⟩
      | nonzero hdigit _ _ => exact ⟨_, _, rfl, .inr hdigit⟩
  | negative _ _ _ => exact ⟨_, _, rfl, .inl rfl⟩

theorem ne_of_numberHead {c d : CodeUnit} (hc : c = unit '-' ∨ isDigit c = true)
    (hd : (d ≠ unit '-' ∧ isDigit d = false)) : c ≠ d := by
  rintro rfl
  rcases hc with hc | hc
  · exact hd.1 hc
  · rw [hd.2] at hc
    cases hc

/-- A derived value begins with a character that is no whitespace and closes nothing. -/
theorem isValue_head {t r : Text} {tree : Tree} (h : IsValue t tree r) :
    ∃ c cs, skipWhitespace t = c :: cs ∧ c ≠ unit ']' := by
  cases h with
  | null => exact ⟨_, _, skipWhitespace_cons (by decide) _, by decide⟩
  | true => exact ⟨_, _, skipWhitespace_cons (by decide) _, by decide⟩
  | false => exact ⟨_, _, skipWhitespace_cons (by decide) _, by decide⟩
  | number hnumber =>
      obtain ⟨c, cs, rfl, hc⟩ := isNumber_head hnumber
      refine ⟨c, cs ++ r, skipWhitespace_cons ?_ _, ne_of_numberHead hc (by decide)⟩
      simp only [isWhitespace, Bool.or_eq_false_iff, decide_eq_false_iff_not]
      exact ⟨⟨⟨ne_of_numberHead hc (by decide), ne_of_numberHead hc (by decide)⟩,
        ne_of_numberHead hc (by decide)⟩, ne_of_numberHead hc (by decide)⟩
  | string hstring =>
      cases hstring
      exact ⟨_, _, skipWhitespace_cons (by decide) _, by decide⟩
  | emptyArray hopen _ =>
      obtain ⟨u, hu, -⟩ := consume_of_structural (by decide) hopen
      exact ⟨_, _, consume_eq_some.mp hu, by decide⟩
  | array hopen _ _ =>
      obtain ⟨u, hu, -⟩ := consume_of_structural (by decide) hopen
      exact ⟨_, _, consume_eq_some.mp hu, by decide⟩
  | emptyObject hopen _ =>
      obtain ⟨u, hu, -⟩ := consume_of_structural (by decide) hopen
      exact ⟨_, _, consume_eq_some.mp hu, by decide⟩
  | object hopen _ _ =>
      obtain ⟨u, hu, -⟩ := consume_of_structural (by decide) hopen
      exact ⟨_, _, consume_eq_some.mp hu, by decide⟩

theorem consume_ne {c d : CodeUnit} {t u : Text} (h : consume d t = some u) (hne : d ≠ c) :
    consume c t = none := by
  rw [consume_eq_some] at h
  rw [h, consume, if_neg hne]

/-- The loops read from the next character that is no whitespace on. -/
theorem parseObject_skip {t t' : Text} (h : skipWhitespace t = skipWhitespace t')
    (made : List (Text × Value)) (fields : List Text) :
    parseObject strict fuel made fields t = parseObject strict fuel made fields t' := by
  cases fuel with
  | zero => rfl
  | succ fuel => rw [parseObject, parseObject, h]

theorem parseArray_skip {t t' : Text} (h : skipWhitespace t = skipWhitespace t')
    (made : List Value) : parseArray strict fuel made t = parseArray strict fuel made t' := by
  cases fuel with
  | zero => rfl
  | succ fuel => rw [parseArray, parseArray, h]

theorem isNumber_ne_nil {literal : Text} (h : IsNumber literal) : literal ≠ [] := by
  obtain ⟨c, cs, rfl, -⟩ := isNumber_head h
  simp

mutual

theorem isValue_length_lt {t r : Text} {tree : Tree} (h : IsValue t tree r) :
    r.length < t.length := by
  cases h with
  | null => simp only [List.length_cons]; omega
  | true => simp only [List.length_cons]; omega
  | false => simp only [List.length_cons]; omega
  | number hnumber =>
      have hpos := List.length_pos_of_ne_nil (isNumber_ne_nil hnumber)
      rw [List.length_append]
      omega
  | string hstring => exact isString_length_lt hstring
  | emptyArray hopen hclose => exact (structural_length_lt hclose).trans (structural_length_lt hopen)
  | array hopen hitems hclose =>
      have hlength := isItems_length_lt hitems
      exact ((structural_length_lt hclose).trans hlength).trans (structural_length_lt hopen)
  | emptyObject hopen hclose => exact (structural_length_lt hclose).trans (structural_length_lt hopen)
  | object hopen hmembers hclose =>
      have hlength := isMembers_length_lt hmembers
      exact ((structural_length_lt hclose).trans hlength).trans (structural_length_lt hopen)

theorem isItems_length_lt {t r : Text} {items : List Tree} (h : IsItems t items r) :
    r.length < t.length := by
  cases h with
  | one hvalue => exact isValue_length_lt hvalue
  | more hvalue hcomma hitems =>
      exact ((isItems_length_lt hitems).trans (structural_length_lt hcomma)).trans
        (isValue_length_lt hvalue)

theorem isMembers_length_lt {t r : Text} {members : List (Text × Tree)} (h : IsMembers t members r) :
    r.length < t.length := by
  cases h with
  | one hname hcolon hvalue =>
      exact ((isValue_length_lt hvalue).trans (structural_length_lt hcolon)).trans
        (isString_length_lt hname)
  | more hname hcolon hvalue hcomma hmembers =>
      have hmember := ((isValue_length_lt hvalue).trans (structural_length_lt hcolon)).trans
        (isString_length_lt hname)
      exact ((isMembers_length_lt hmembers).trans (structural_length_lt hcomma)).trans hmember

end

/-- Enough fuel reads what is derived. -/
structure Complete (strict : Bool) (fuel : Nat) : Prop where
  value : ∀ {t tree r}, IsValue t tree r →
    (strict = true → tree.NamesDistinct ∧ tree.NumbersFinite) → EndsNumber r →
    2 * t.length < fuel → ∃ rest, parseValue strict fuel (skipWhitespace t) = .ok (tree.value, rest) ∧
      skipWhitespace rest = skipWhitespace r
  object : ∀ {t members u r} (made fields), IsMembers t members u → Structural (unit '}') u r →
    (strict = true → (members.map Prod.fst).Nodup ∧ (∀ name ∈ fields, name ∉ members.map Prod.fst) ∧
      MemberNamesDistinct members ∧ MemberNumbersFinite members) →
    2 * t.length + 1 < fuel →
    ∃ rest, parseObject strict fuel made fields t = .ok (.obj (memberValues made members), rest) ∧
      skipWhitespace rest = skipWhitespace r
  array : ∀ {t items u r} (made), IsItems t items u → Structural (unit ']') u r →
    (strict = true → ItemNamesDistinct items ∧ ItemNumbersFinite items) →
    2 * t.length + 1 < fuel →
    ∃ rest, parseArray strict fuel made t = .ok (.arr (made ++ values items), rest) ∧
      skipWhitespace rest = skipWhitespace r

theorem parseValue_number {c : CodeUnit} (hc : c = unit '-' ∨ isDigit c = true) (t : Text) :
    parseValue strict (fuel + 1) (c :: t) = parseNumber strict (c :: t) := by
  have hne : ∀ d, d ≠ unit '-' ∧ isDigit d = false → c ≠ d := fun d => ne_of_numberHead hc
  rw [parseValue, if_neg (hne _ (by decide)), if_neg (hne _ (by decide)), if_neg (hne _ (by decide)),
    if_neg (hne _ (by decide)), if_neg (hne _ (by decide)), if_neg (hne _ (by decide)),
    if_pos (by simpa using hc)]

theorem parseValue_brace (t : Text) : parseValue strict (fuel + 1) (unit '{' :: t) =
    match consume (unit '}') (skipWhitespace t) with
    | some rest => .ok (.obj [], rest)
    | none => parseObject strict fuel [] [] (skipWhitespace t) := by
  rw [parseValue, if_neg (by decide), if_pos rfl]

theorem parseValue_bracket (t : Text) : parseValue strict (fuel + 1) (unit '[' :: t) =
    match consume (unit ']') (skipWhitespace t) with
    | some rest => .ok (.arr [], rest)
    | none => parseArray strict fuel [] (skipWhitespace t) := by
  rw [parseValue, if_neg (by decide), if_neg (by decide), if_pos rfl]

theorem parseLiteral_append {literal : List Char} {value : Value} {t r : Text}
    (h : t = literal.map unit ++ r) : parseLiteral literal value t = .ok (value, r) := by
  rw [parseLiteral, h, if_pos (List.isPrefixOf_iff_prefix.mpr (List.prefix_append _ _)),
    ← List.length_map (f := unit), List.drop_left]

/-- A number is read to its end, whatever sign or digit it starts with. -/
theorem parseValue_isNumber {literal r : Text} (hnumber : IsNumber literal) (hend : EndsNumber r)
    (hfinite : strict = true → (toNumber literal).isFinite = true) :
    parseValue strict (fuel + 1) (skipWhitespace (literal ++ r)) =
      .ok (.num (toNumber literal), r) := by
  have hmatch := matchNumber_append hnumber hend
  obtain ⟨c, cs, hliteral, hc⟩ := isNumber_head hnumber
  have hvisible : isWhitespace c = false := by
    simp only [isWhitespace, Bool.or_eq_false_iff, decide_eq_false_iff_not]
    exact ⟨⟨⟨ne_of_numberHead hc (by decide), ne_of_numberHead hc (by decide)⟩,
      ne_of_numberHead hc (by decide)⟩, ne_of_numberHead hc (by decide)⟩
  have hadmitted : (strict && !(toNumber literal).isFinite) = false := by
    cases hstrict : strict with
    | false => rfl
    | true =>
        rw [hfinite hstrict]
        rfl
  rw [hliteral, List.cons_append] at hmatch ⊢
  rw [skipWhitespace_cons hvisible, parseValue_number hc, parseNumber, hmatch, ← hliteral]
  simp [hadmitted]

theorem consume_none_of_isItems {u v : Text} {items : List Tree} (h : IsItems u items v) :
    consume (unit ']') (skipWhitespace u) = none := by
  obtain ⟨c, cs, hhead, hc⟩ : ∃ c cs, skipWhitespace u = c :: cs ∧ c ≠ unit ']' := by
    cases h with
    | one hitem => exact isValue_head hitem
    | more hitem _ _ => exact isValue_head hitem
  rw [hhead, consume, if_neg hc]

theorem consume_none_of_isMembers {u v : Text} {members : List (Text × Tree)}
    (h : IsMembers u members v) : consume (unit '}') (skipWhitespace u) = none := by
  obtain ⟨cs, rfl⟩ : ∃ cs, u = 0x22 :: cs := by
    cases h with
    | one hname _ _ =>
        cases hname
        exact ⟨_, rfl⟩
    | more hname _ _ _ _ =>
        cases hname
        exact ⟨_, rfl⟩
  rw [skipWhitespace_cons (by decide), consume, if_neg (by decide)]

/-- An array that is not empty, from its bracket on. -/
theorem Complete.items (h : Complete strict fuel) {t u v r : Text} {items : List Tree}
    (hopen : Structural (unit '[') t u) (hitems : IsItems u items v)
    (hclose : Structural (unit ']') v r)
    (hadmitted : strict = true → ItemNamesDistinct items ∧ ItemNumbersFinite items)
    (hfuel : 2 * t.length < fuel + 1) :
    ∃ rest, parseValue strict (fuel + 1) (skipWhitespace t) = .ok (.arr (values items), rest) ∧
      skipWhitespace rest = skipWhitespace r := by
  obtain ⟨x, hx, hskip⟩ := consume_of_structural (by decide) hopen
  have hlength := structural_length_lt hopen
  obtain ⟨rest, hparse, hrest⟩ := h.array [] hitems hclose hadmitted (by omega)
  refine ⟨rest, ?_, hrest⟩
  rw [consume_eq_some.mp hx, parseValue_bracket, hskip, consume_none_of_isItems hitems]
  dsimp only
  rw [parseArray_skip (skipWhitespace_idem u), hparse]
  rfl

/-- An object that is not empty, from its brace on. -/
theorem Complete.members (h : Complete strict fuel) {t u v r : Text} {members : List (Text × Tree)}
    (hopen : Structural (unit '{') t u) (hmembers : IsMembers u members v)
    (hclose : Structural (unit '}') v r)
    (hadmitted : strict = true → ((members.map Prod.fst).Nodup ∧ MemberNamesDistinct members) ∧
      MemberNumbersFinite members)
    (hfuel : 2 * t.length < fuel + 1) :
    ∃ rest, parseValue strict (fuel + 1) (skipWhitespace t) =
        .ok (.obj (memberValues [] members), rest) ∧
      skipWhitespace rest = skipWhitespace r := by
  obtain ⟨x, hx, hskip⟩ := consume_of_structural (by decide) hopen
  have hlength := structural_length_lt hopen
  obtain ⟨rest, hparse, hrest⟩ := h.object [] [] hmembers hclose
    (fun hstrict => ⟨(hadmitted hstrict).1.1, by simp, (hadmitted hstrict).1.2,
      (hadmitted hstrict).2⟩) (by omega)
  refine ⟨rest, ?_, hrest⟩
  rw [consume_eq_some.mp hx, parseValue_brace, hskip, consume_none_of_isMembers hmembers]
  dsimp only
  rw [parseObject_skip (skipWhitespace_idem u), hparse]

theorem Complete.value_succ (h : Complete strict fuel) {t r : Text} {tree : Tree}
    (hderived : IsValue t tree r)
    (hadmitted : strict = true → tree.NamesDistinct ∧ tree.NumbersFinite) (hend : EndsNumber r)
    (hfuel : 2 * t.length < fuel + 1) :
    ∃ rest, parseValue strict (fuel + 1) (skipWhitespace t) = .ok (tree.value, rest) ∧
      skipWhitespace rest = skipWhitespace r := by
  cases hderived with
  | null =>
      refine ⟨r, ?_, rfl⟩
      rw [skipWhitespace_cons (by decide), parseValue, if_neg (by decide), if_neg (by decide),
        if_neg (by decide), if_neg (by decide), if_neg (by decide), if_pos rfl]
      exact parseLiteral_append rfl
  | true =>
      refine ⟨r, ?_, rfl⟩
      rw [skipWhitespace_cons (by decide), parseValue, if_neg (by decide), if_neg (by decide),
        if_neg (by decide), if_pos rfl]
      exact parseLiteral_append rfl
  | false =>
      refine ⟨r, ?_, rfl⟩
      rw [skipWhitespace_cons (by decide), parseValue, if_neg (by decide), if_neg (by decide),
        if_neg (by decide), if_neg (by decide), if_pos rfl]
      exact parseLiteral_append rfl
  | number hnumber =>
      exact ⟨r, parseValue_isNumber hnumber hend fun hstrict => (hadmitted hstrict).2, rfl⟩
  | string hstring =>
      refine ⟨r, ?_, rfl⟩
      have hparse := parseString_iff.mpr hstring
      cases hstring with
      | quoted _ =>
          rw [skipWhitespace_cons (by decide), parseValue, if_pos rfl, hparse]
          rfl
  | emptyArray hopen hclose =>
      obtain ⟨x, hx, hskip⟩ := consume_of_structural (by decide) hopen
      obtain ⟨y, hy, hrest⟩ := consume_of_structural (by decide) hclose
      refine ⟨y, ?_, hrest⟩
      rw [consume_eq_some.mp hx, parseValue_bracket, hskip, hy]
      rfl
  | array hopen hitems hclose => exact h.items hopen hitems hclose hadmitted hfuel
  | emptyObject hopen hclose =>
      obtain ⟨x, hx, hskip⟩ := consume_of_structural (by decide) hopen
      obtain ⟨y, hy, hrest⟩ := consume_of_structural (by decide) hclose
      refine ⟨y, ?_, hrest⟩
      rw [consume_eq_some.mp hx, parseValue_brace, hskip, hy]
      rfl
  | object hopen hmembers hclose => exact h.members hopen hmembers hclose hadmitted hfuel

/-- What one round of the loop of objects reads: a name, a colon and a value. -/
theorem Complete.member (h : Complete strict fuel) {t u v w : Text} {name : Text} {tree : Tree}
    (made : List (Text × Value)) (fields : List Text) (hname : IsString t name u)
    (hcolon : Structural (unit ':') u v) (hvalue : IsValue v tree w)
    (hadmitted : strict = true → tree.NamesDistinct ∧ tree.NumbersFinite)
    (hfresh : strict = true → name ∉ fields) (hend : EndsNumber w)
    (hfuel : 2 * t.length + 1 < fuel + 1) :
    parseObject strict (fuel + 1) made fields t =
      match consume (unit '}') (skipWhitespace w) with
      | some rest => .ok (.obj (assign made name tree.value), rest)
      | none =>
        match consume (unit ',') (skipWhitespace w) with
        | none => .error .invalidJson
        | some rest => parseObject strict fuel (assign made name tree.value) (name :: fields) rest := by
  have hlength := isString_length_lt hname
  have hlength' := structural_length_lt hcolon
  obtain ⟨x, hx, hskip⟩ := consume_of_structural (by decide) hcolon
  obtain ⟨behind, hparse, hbehind⟩ := h.value hvalue hadmitted hend (by omega)
  have hquote : (skipWhitespace t).head? = some 0x22 ∧ skipWhitespace t = t := by
    cases hname
    rw [skipWhitespace_cons (by decide)]
    exact ⟨rfl, rfl⟩
  have hdouble : ¬ (strict && decide (name ∈ fields)) = true := by
    cases hstrict : strict with
    | false => simp
    | true => simpa using hfresh hstrict
  rw [parseObject, if_neg (not_not_intro hquote.1), hquote.2, parseString_iff.mpr hname]
  change (if (strict && decide (name ∈ fields)) = true then _ else _) = _
  rw [if_neg hdouble, hx]
  dsimp only
  rw [hskip, hparse]
  change (match consume (unit '}') (skipWhitespace behind) with | some rest => _ | none => _) = _
  rw [hbehind]

theorem Complete.object_succ (h : Complete strict fuel) {t u r : Text}
    {members : List (Text × Tree)} (made : List (Text × Value)) (fields : List Text)
    (hmembers : IsMembers t members u) (hclose : Structural (unit '}') u r)
    (hadmitted : strict = true → (members.map Prod.fst).Nodup ∧
      (∀ name ∈ fields, name ∉ members.map Prod.fst) ∧
      MemberNamesDistinct members ∧ MemberNumbersFinite members)
    (hfuel : 2 * t.length + 1 < fuel + 1) :
    ∃ rest, parseObject strict (fuel + 1) made fields t =
        .ok (.obj (memberValues made members), rest) ∧
      skipWhitespace rest = skipWhitespace r := by
  cases hmembers with
  | @one _ _ _ _ name tree hname hcolon hvalue =>
      have hparse := h.member made fields hname hcolon hvalue
        (fun hstrict => ⟨(hadmitted hstrict).2.2.1.1, (hadmitted hstrict).2.2.2.1⟩)
        (fun hstrict hmem => (hadmitted hstrict).2.1 name hmem (by simp))
        (endsNumber_of_structural (by decide) hclose) hfuel
      obtain ⟨y, hy, hrest⟩ := consume_of_structural (by decide) hclose
      rw [hy] at hparse
      exact ⟨y, hparse, hrest⟩
  | @more _ _ _ w x _ name tree members hname hcolon hvalue hcomma hmembers =>
      have hothersAdmitted : strict = true → (members.map Prod.fst).Nodup ∧
          (∀ other ∈ name :: fields, other ∉ members.map Prod.fst) ∧
          MemberNamesDistinct members ∧ MemberNumbersFinite members := by
        intro hstrict
        obtain ⟨hnodup, hapart, hnames, hfinite⟩ := hadmitted hstrict
        rw [List.map_cons, List.nodup_cons] at hnodup
        refine ⟨hnodup.2, ?_, hnames.2, hfinite.2⟩
        intro other hother hmem
        rcases List.mem_cons.mp hother with rfl | hother
        · exact hnodup.1 hmem
        · exact hapart other hother (by rw [List.map_cons]; exact List.mem_cons_of_mem _ hmem)
      have hparse := h.member made fields hname hcolon hvalue
        (fun hstrict => ⟨(hadmitted hstrict).2.2.1.1, (hadmitted hstrict).2.2.2.1⟩)
        (fun hstrict hmem => (hadmitted hstrict).2.1 name hmem (by simp))
        (endsNumber_of_structural (by decide) hcomma) hfuel
      have hshorter := (((structural_length_lt hcomma).trans (isValue_length_lt hvalue)).trans
        (structural_length_lt hcolon)).trans (isString_length_lt hname)
      obtain ⟨y, hy, hskip⟩ := consume_of_structural (by decide) hcomma
      obtain ⟨rest, hothers, hrest⟩ := h.object (assign made name tree.value) (name :: fields)
        hmembers hclose hothersAdmitted (by omega)
      refine ⟨rest, ?_, hrest⟩
      rw [hparse, consume_ne hy (by decide), hy]
      dsimp only
      rw [parseObject_skip hskip, hothers]
      rfl

theorem Complete.array_succ (h : Complete strict fuel) {t u r : Text} {items : List Tree}
    (made : List Value) (hitems : IsItems t items u) (hclose : Structural (unit ']') u r)
    (hadmitted : strict = true → ItemNamesDistinct items ∧ ItemNumbersFinite items)
    (hfuel : 2 * t.length + 1 < fuel + 1) :
    ∃ rest, parseArray strict (fuel + 1) made t = .ok (.arr (made ++ values items), rest) ∧
      skipWhitespace rest = skipWhitespace r := by
  cases hitems with
  | @one _ _ tree hvalue =>
      obtain ⟨behind, hparse, hbehind⟩ := h.value hvalue
        (fun hstrict => ⟨(hadmitted hstrict).1.1, (hadmitted hstrict).2.1⟩)
        (endsNumber_of_structural (by decide) hclose) (by omega)
      obtain ⟨y, hy, hrest⟩ := consume_of_structural (by decide) hclose
      refine ⟨y, ?_, hrest⟩
      rw [parseArray, hparse]
      change (match consume (unit ']') (skipWhitespace behind) with | some rest => _ | none => _) = _
      rw [hbehind, hy]
      rfl
  | @more _ w x _ tree items hvalue hcomma hitems =>
      obtain ⟨behind, hparse, hbehind⟩ := h.value hvalue
        (fun hstrict => ⟨(hadmitted hstrict).1.1, (hadmitted hstrict).2.1⟩)
        (endsNumber_of_structural (by decide) hcomma) (by omega)
      have hshorter := (structural_length_lt hcomma).trans (isValue_length_lt hvalue)
      obtain ⟨y, hy, hskip⟩ := consume_of_structural (by decide) hcomma
      obtain ⟨rest, hothers, hrest⟩ := h.array (made ++ [tree.value]) hitems hclose
        (fun hstrict => ⟨(hadmitted hstrict).1.2, (hadmitted hstrict).2.2⟩) (by omega)
      refine ⟨rest, ?_, hrest⟩
      rw [parseArray, hparse]
      change (match consume (unit ']') (skipWhitespace behind) with | some rest => _ | none => _) = _
      rw [hbehind, consume_ne hy (by decide)]
      dsimp only
      rw [hy]
      dsimp only
      rw [parseArray_skip hskip, hothers, values, List.append_assoc, List.singleton_append]

/-- **Completeness** of the readers. -/
theorem complete (strict : Bool) (fuel : Nat) : Complete strict fuel := by
  induction fuel with
  | zero =>
      exact ⟨fun _ _ _ hfuel => absurd hfuel (Nat.not_lt_zero _),
        fun _ _ _ _ _ hfuel => absurd hfuel (Nat.not_lt_zero _),
        fun _ _ _ _ hfuel => absurd hfuel (Nat.not_lt_zero _)⟩
  | succ fuel ih => exact ⟨ih.value_succ, ih.object_succ, ih.array_succ⟩

end Completeness

/-! ## The texts that are accepted -/

/-- What is read from a text is the value of its tree, and every tree of a text is read. -/
theorem parse_eq_ok {strict : Bool} {input : Text} {value : Value} :
    parse strict input = .ok value ↔ ∃ tree, IsJsonText input tree ∧
      (strict = true → tree.NamesDistinct ∧ tree.NumbersFinite) ∧ tree.value = value := by
  constructor
  · intro h
    obtain ⟨⟨v, rest⟩, hparse, h⟩ := exists_of_bind_ok h
    dsimp only at h
    by_cases hrest : skipWhitespace rest ≠ []
    · rw [if_pos hrest] at h
      cases h
    · rw [if_neg hrest] at h
      obtain ⟨tree, hderived, rfl, hadmitted⟩ := (sound strict _).value hparse
      exact ⟨tree, ⟨_, rest, ws_skipWhitespace input, hderived, ws_nil_iff.mpr (not_not.mp hrest)⟩,
        hadmitted, Except.ok.inj h⟩
  · rintro ⟨tree, ⟨t, r, hbefore, hderived, hbehind⟩, hadmitted, rfl⟩
    have hlength := ws_length_le hbefore
    obtain ⟨rest, hparse, hrest⟩ := (complete strict (2 * input.length + 1)).value hderived hadmitted
      (endsNumber_of_ws_nil hbehind) (by omega)
    rw [parse, skipWhitespace_of_ws hbefore, hparse]
    change (if skipWhitespace rest ≠ [] then _ else _) = _
    rw [hrest, ws_nil_iff.mp hbehind, if_neg (by simp)]
    rfl

/-- A text that is accepted is not accepted with a further value behind it. -/
theorem parse_append_ne_ok {strict : Bool} {input behind : Text} {value : Value}
    (h : parse strict input = .ok value) (hbehind : skipWhitespace behind ≠ [])
    (hends : EndsNumber behind) (other : Value) : parse strict (input ++ behind) ≠ .ok other := by
  obtain ⟨tree, ⟨t, r, hbefore, hderived, hrest⟩, hadmitted, -⟩ := parse_eq_ok.mp h
  have hlength := ws_length_le (ws_append behind hbefore)
  have hnumber : EndsNumber (r ++ behind) := by
    cases r with
    | nil => exact hends
    | cons c r =>
        cases hrest with
        | cons hspace _ => exact endsNumber_of_isWhitespace hspace _
  obtain ⟨rest, hparse, hskip⟩ := (complete strict (2 * (input ++ behind).length + 1)).value
    (isValue_append hderived behind) hadmitted hnumber (by omega)
  rw [skipWhitespace_of_ws (ws_append behind hrest), List.nil_append] at hskip
  rw [parse, skipWhitespace_of_ws (ws_append behind hbefore), hparse]
  change (if skipWhitespace rest ≠ [] then _ else _) ≠ _
  rw [hskip, if_pos hbehind]
  intro hok
  cases hok

/-- The host parses the texts of the grammar, to the values of their trees. -/
theorem jsonParse_eq_some {input : Text} {value : Value} :
    jsonParse input = some value ↔ ∃ tree, IsJsonText input tree ∧ tree.value = value := by
  have hparse : jsonParse input = some value ↔ parse false input = .ok value := by
    rw [jsonParse]
    cases parse false input <;> simp [Except.toOption]
  rw [hparse, parse_eq_ok]
  simp

/-- **Strict JSON**: accepted are the texts of the grammar in which no object has two members
of one name and every number is finite, what is read is the value of the tree of the text, and the
host reads the same. -/
theorem parseStrictJson_exact (input : Text) :
    ((∃ value, parseStrictJson input = .ok value) ↔
      ∃ tree, IsJsonText input tree ∧ tree.NamesDistinct ∧ tree.NumbersFinite) ∧
    (∀ value, parseStrictJson input = .ok value ↔
      ∃ tree, IsJsonText input tree ∧ tree.NamesDistinct ∧ tree.NumbersFinite ∧ tree.value = value) ∧
    ∀ value, parseStrictJson input = .ok value →
      (∃ tree, IsJsonText input tree ∧ tree.value = value) ∧ jsonParse input = some value := by
  refine ⟨?_, fun value => ?_, fun value h => ?_⟩
  · constructor
    · rintro ⟨value, h⟩
      obtain ⟨tree, htext, hadmitted, -⟩ := parse_eq_ok.mp h
      exact ⟨tree, htext, hadmitted rfl⟩
    · rintro ⟨tree, htext, hadmitted⟩
      exact ⟨tree.value, parse_eq_ok.mpr ⟨tree, htext, fun _ => hadmitted, rfl⟩⟩
  · rw [parseStrictJson, parse_eq_ok]
    simp only [forall_const, and_assoc]
  · obtain ⟨tree, htext, -, hvalue⟩ := parse_eq_ok.mp h
    exact ⟨⟨tree, htext, hvalue⟩, jsonParse_eq_some.mpr ⟨tree, htext, hvalue⟩⟩

end AtlasManager.Config
