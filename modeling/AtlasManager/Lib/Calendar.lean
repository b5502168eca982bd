import AtlasManager.Lib.Decimal

/-!
# AtlasManager.Lib.Calendar

Instants in milliseconds since 1970-01-01T00:00:00.000Z, the proleptic
Gregorian calendar, and the ISO text of an instant as JavaScript writes it.

A `Timestamp` is an instant a `Date` can hold.  Programs store it as its ISO
text and compare either the numbers or the texts.  The two orders agree inside
the years 0000 to 9999 only: earlier and later years carry a sign and six
digits.

* `Timestamp.ofText?_text` / `Timestamp.text_ofText?` -- text and instant
  determine each other;
* `Timestamp.text_lt_iff_of_fourDigit` -- the two orders agree on four-digit years;
* `Timestamp.text_lt_iff_of_lt` -- and exactly where they agree;
* `Timestamp.text_lt_of_between` -- within one year's distance, a text order
  that agrees with time at the ends agrees in between.
-/

namespace AtlasManager.Lib

/-! ## Days and years -/

/-- Day number of the first of January of a year; 1970-01-01 is day 0. -/
def dayFromYear (y : Int) : Int :=
  365 * (y - 1970) + (y - 1969) / 4 - (y - 1901) / 100 + (y - 1601) / 400

/-- The year a day lies in: the mean year length gives it up to one. -/
def yearFromDay (d : Int) : Int :=
  let y := 1970 + 400 * d / 146097
  if d < dayFromYear y then y - 1
  else if dayFromYear (y + 1) ≤ d then y + 1
  else y

theorem yearFromDay_spec (d : Int) :
    dayFromYear (yearFromDay d) ≤ d ∧ d < dayFromYear (yearFromDay d + 1) := by
  unfold yearFromDay
  simp only
  generalize hy : 1970 + 400 * d / 146097 = y
  split_ifs with hlow hhigh
  · rw [show y - 1 + 1 = y by omega]
    refine ⟨?_, hlow⟩
    simp only [dayFromYear] at *
    omega
  · refine ⟨hhigh, ?_⟩
    simp only [dayFromYear] at *
    omega
  · omega

/-- A year has 365 or 366 days. -/
theorem dayFromYear_succ (y : Int) :
    dayFromYear y + 365 ≤ dayFromYear (y + 1) ∧ dayFromYear (y + 1) ≤ dayFromYear y + 366 := by
  simp only [dayFromYear]; omega

theorem dayFromYear_mono {y z : Int} (h : y ≤ z) : dayFromYear y ≤ dayFromYear z := by
  simp only [dayFromYear]; omega

theorem yearFromDay_mono {d e : Int} (h : d ≤ e) : yearFromDay d ≤ yearFromDay e := by
  by_contra hlt
  have hd := yearFromDay_spec d
  have he := yearFromDay_spec e
  have := dayFromYear_mono (show yearFromDay e + 1 ≤ yearFromDay d by omega)
  omega

/-! ## Months -/

/-- Days of a year before a month (1 to 12); `leap` is 1 in a leap year and 0
otherwise.  February counts as 30 days in the quotient, which the second
summand takes back. -/
def dayBeforeMonth (leap month : Int) : Int :=
  (367 * month - 362) / 12 + if month ≤ 2 then 0 else leap - 2

/-- The month a day of the year (counted from 0) lies in. -/
def monthFromDay (leap d : Int) : Int :=
  (12 * (d + if d < 59 + leap then 0 else 2 - leap) + 373) / 367

example : (List.range 12).map (fun m => dayBeforeMonth 0 (m + 1)) =
    [0, 31, 59, 90, 120, 151, 181, 212, 243, 273, 304, 334] := by decide

/-- A day of the year lies less than 31 days after the start of its month. -/
theorem monthFromDay_spec {leap d : Int} (_h0 : 0 ≤ d) (hd : d < 365 + leap)
    (hleap : leap = 0 ∨ leap = 1) :
    dayBeforeMonth leap (monthFromDay leap d) ≤ d ∧
      d < dayBeforeMonth leap (monthFromDay leap d) + 31 := by
  unfold monthFromDay
  split_ifs with hfeb
  · generalize hm : (12 * (d + 0) + 373) / 367 = m
    unfold dayBeforeMonth
    split_ifs <;> omega
  · generalize hm : (12 * (d + (2 - leap)) + 373) / 367 = m
    unfold dayBeforeMonth
    split_ifs <;> omega

theorem monthFromDay_mono {leap d e : Int} (hleap : leap = 0 ∨ leap = 1) (h : d ≤ e) :
    monthFromDay leap d ≤ monthFromDay leap e := by
  unfold monthFromDay
  split_ifs <;> omega

theorem monthFromDay_range {leap d : Int} (h0 : 0 ≤ d) (hd : d < 365 + leap)
    (hleap : leap = 0 ∨ leap = 1) : 1 ≤ monthFromDay leap d ∧ monthFromDay leap d ≤ 12 := by
  unfold monthFromDay
  split_ifs <;> omega

/-! ## Civil time -/

def msPerDay : Int := 86400000

/-- 1 in a leap year, 0 otherwise. -/
def leapDay (y : Int) : Int := dayFromYear (y + 1) - dayFromYear y - 365

theorem leapDay_cases (y : Int) : leapDay y = 0 ∨ leapDay y = 1 := by
  have := dayFromYear_succ y
  unfold leapDay
  omega

def yearOf (ms : Int) : Int := yearFromDay (ms / msPerDay)

/-- The day of the year an instant lies in, counted from 0. -/
def dayOfYear (ms : Int) : Int := ms / msPerDay - dayFromYear (yearOf ms)

def monthOf (ms : Int) : Int := monthFromDay (leapDay (yearOf ms)) (dayOfYear ms)

/-- Calendar fields of an instant, in UTC. -/
structure CivilTime where
  year : Int
  month : Nat
  day : Nat
  hour : Nat
  minute : Nat
  second : Nat
  milli : Nat
  deriving DecidableEq, Repr

/-- Calendar fields of an instant. -/
def civil (ms : Int) : CivilTime where
  year := yearOf ms
  month := (monthOf ms).toNat
  day := (dayOfYear ms - dayBeforeMonth (leapDay (yearOf ms)) (monthOf ms) + 1).toNat
  hour := (ms % msPerDay).toNat / 3600000
  minute := (ms % msPerDay).toNat / 60000 % 60
  second := (ms % msPerDay).toNat / 1000 % 60
  milli := (ms % msPerDay).toNat % 1000

/-- The instant with given calendar fields. -/
def CivilTime.instant (c : CivilTime) : Int :=
  (dayFromYear c.year + dayBeforeMonth (leapDay c.year) c.month + c.day - 1) * msPerDay +
    (c.hour * 3600000 + c.minute * 60000 + c.second * 1000 + c.milli)

theorem yearOf_mono {a b : Int} (h : a ≤ b) : yearOf a ≤ yearOf b :=
  yearFromDay_mono (Int.ediv_le_ediv (by decide) h)

theorem dayOfYear_range (ms : Int) :
    0 ≤ dayOfYear ms ∧ dayOfYear ms < 365 + leapDay (yearOf ms) := by
  have hyear := yearFromDay_spec (ms / msPerDay)
  unfold dayOfYear leapDay yearOf
  omega

theorem monthOf_range (ms : Int) : 1 ≤ monthOf ms ∧ monthOf ms ≤ 12 := by
  obtain ⟨h0, hd⟩ := dayOfYear_range ms
  exact monthFromDay_range h0 hd (leapDay_cases _)

/-- A day lies less than 31 days after the start of its month. -/
theorem dayOfMonth_range (ms : Int) :
    0 ≤ dayOfYear ms - dayBeforeMonth (leapDay (yearOf ms)) (monthOf ms) ∧
      dayOfYear ms - dayBeforeMonth (leapDay (yearOf ms)) (monthOf ms) < 31 := by
  obtain ⟨h0, hd⟩ := dayOfYear_range ms
  have hspec := monthFromDay_spec h0 hd (leapDay_cases _)
  unfold monthOf
  omega

/-- The fields of an instant are those of no other instant. -/
theorem instant_civil (ms : Int) : (civil ms).instant = ms := by
  have hday := dayOfMonth_range ms
  have hmonth := monthOf_range ms
  simp only [civil, CivilTime.instant]
  rw [Int.toNat_of_nonneg (show 0 ≤ monthOf ms by omega)]
  generalize dayBeforeMonth (leapDay (yearOf ms)) (monthOf ms) = before at *
  unfold dayOfYear msPerDay at *
  omega

/-! ## The ISO text -/

/-- Four digits inside the years 0000 to 9999, a sign and six digits outside. -/
def yearText (y : Int) : List Char :=
  if y < 0 then '-' :: pad 6 y.natAbs
  else if y ≤ 9999 then pad 4 y.toNat
  else '+' :: pad 6 y.toNat

/-- What follows the year, from `-MM` to the closing `Z`. -/
def restText (c : CivilTime) : List Char :=
  '-' :: (pad 2 c.month ++ '-' :: (pad 2 c.day ++ 'T' :: (pad 2 c.hour ++ ':' ::
    (pad 2 c.minute ++ ':' :: (pad 2 c.second ++ '.' :: (pad 3 c.milli ++ ['Z']))))))

def isoText (c : CivilTime) : List Char := yearText c.year ++ restText c

/-- The fields after the year fit their widths. -/
theorem civil_bounds (ms : Int) :
    (civil ms).month < 10 ^ 2 ∧ (civil ms).day < 10 ^ 2 ∧ (civil ms).hour < 10 ^ 2 ∧
      (civil ms).minute < 10 ^ 2 ∧ (civil ms).second < 10 ^ 2 ∧ (civil ms).milli < 10 ^ 3 := by
  have hday := dayOfMonth_range ms
  have hmonth := monthOf_range ms
  simp only [civil]
  refine ⟨by omega, by omega, ?_, by omega, by omega, by omega⟩
  unfold msPerDay
  omega

@[simp] theorem length_restText (c : CivilTime) : (restText c).length = 20 := by
  simp [restText]

theorem length_yearText (y : Int) :
    (yearText y).length = if 0 ≤ y ∧ y ≤ 9999 then 4 else 7 := by
  unfold yearText
  split_ifs <;> first | omega | simp

theorem getLast?_restText (c : CivilTime) : (restText c).getLast? = some 'Z' := by
  have happend : restText c = (restText c).dropLast ++ ['Z'] := by
    simp [restText, List.dropLast_append_of_ne_nil, List.dropLast_cons_of_ne_nil]
  rw [happend, List.getLast?_concat]

/-- Inside one year, a later instant has a larger text after the year. -/
theorem restText_lt {a b : Int} (hlt : a < b) (hyear : yearOf a = yearOf b) :
    restText (civil a) < restText (civil b) := by
  obtain ⟨ham, had, hah, haM, has, haS⟩ := civil_bounds a
  obtain ⟨hbm, hbd, hbh, hbM, hbs, hbS⟩ := civil_bounds b
  unfold restText
  rw [field_lt_iff _ ham hbm, field_lt_iff _ had hbd, field_lt_iff _ hah hbh,
    field_lt_iff _ haM hbM, field_lt_iff _ has hbs, field_lt_iff _ haS hbS]
  have hda := dayOfMonth_range a
  have hdb := dayOfMonth_range b
  have hma := monthOf_range a
  have hmb := monthOf_range b
  -- either the month is later, or it is the same and the day, then the time, decide
  have hdays : a / msPerDay ≤ b / msPerDay := Int.ediv_le_ediv (by decide) (le_of_lt hlt)
  have hmonth : monthOf a ≤ monthOf b := by
    unfold monthOf
    rw [hyear]
    refine monthFromDay_mono (leapDay_cases _) ?_
    unfold dayOfYear
    rw [hyear]
    omega
  simp only [civil]
  rw [hyear] at hda ⊢
  rcases Int.lt_or_eq_of_le hmonth with hm | hm
  · exact Or.inl (by omega)
  · refine Or.inr ⟨by rw [hm], ?_⟩
    rw [hm] at hda ⊢
    generalize dayBeforeMonth (leapDay (yearOf b)) (monthOf b) = before at *
    unfold dayOfYear at *
    rw [hyear] at hda ⊢
    unfold msPerDay at *
    omega

/-- Years whose texts compare like years: `y`'s text is below `z`'s. -/
def yearBefore (y z : Int) : Prop :=
  (9999 < y ∧ (z ≤ 9999 ∨ y < z)) ∨
  (y < 0 ∧ ((0 ≤ z ∧ z ≤ 9999) ∨ (z < 0 ∧ z < y))) ∨
  (0 ≤ y ∧ y ≤ 9999 ∧ y < z ∧ z ≤ 9999)

private theorem pad_four_head (n : Nat) :
    ∃ d cs, d < 10 ∧ pad 4 n = Nat.digitChar d :: cs := by
  refine ⟨n / 10 / 10 / 10 % 10, [Nat.digitChar (n / 10 / 10 % 10),
    Nat.digitChar (n / 10 % 10), Nat.digitChar (n % 10)], by omega, ?_⟩
  simp only [pad, List.nil_append, List.cons_append]

private theorem sign_lt_digit : ∀ d < 10,
    '+' < Nat.digitChar d ∧ '-' < Nat.digitChar d ∧
      ¬ Nat.digitChar d < '+' ∧ ¬ Nat.digitChar d < '-' ∧
      Nat.digitChar d ≠ '+' ∧ Nat.digitChar d ≠ '-' := by decide

/-- Between different years the text of the year decides. -/
theorem isoText_lt_iff_of_year_ne {c d : CivilTime} (hne : c.year ≠ d.year)
    (hc : c.year.natAbs < 10 ^ 6) (hd : d.year.natAbs < 10 ^ 6) :
    isoText c < isoText d ↔ yearBefore c.year d.year := by
  obtain ⟨e, es, he, hce⟩ := pad_four_head c.year.toNat
  obtain ⟨f, fs, hf, hdf⟩ := pad_four_head d.year.toNat
  have hes := sign_lt_digit e he
  have hfs := sign_lt_digit f hf
  have hplusminus : '+' < '-' ∧ ¬ '-' < '+' := by decide
  have hdec4 : ∀ n : Int, 0 ≤ n → n ≤ 9999 → n.toNat < 10 ^ 4 := by intro n; omega
  have hinj4 : ∀ m n : Nat, m < 10 ^ 4 → n < 10 ^ 4 → (pad 4 m = pad 4 n ↔ m = n) :=
    fun m n hm hn => ⟨pad_inj hm hn, fun h => by rw [h]⟩
  have hinj6 : ∀ m n : Nat, m < 10 ^ 6 → n < 10 ^ 6 → (pad 6 m = pad 6 n ↔ m = n) :=
    fun m n hm hn => ⟨pad_inj hm hn, fun h => by rw [h]⟩
  unfold isoText yearText yearBefore
  -- the sign characters sort as `+`, then `-`, then the digits
  split_ifs with h1 h2 h3 h4 h5 h6
  · rw [List.cons_append, List.cons_append, cons_lt_cons_same,
      append_lt_append_iff (by simp), pad_lt_pad_iff hc hd, hinj6 _ _ hc hd]
    omega
  · rw [hdf]
    simp only [List.cons_append, List.cons_lt_cons_iff, hfs]
    simp
    omega
  · simp only [List.cons_append, List.cons_lt_cons_iff, hplusminus]
    simp
    omega
  · rw [hce]
    simp only [List.cons_append, List.cons_lt_cons_iff, hes]
    simp
    omega
  · rw [append_lt_append_iff (by simp), pad_lt_pad_iff (hdec4 _ (by omega) h4)
      (hdec4 _ (by omega) (by omega)), hinj4 _ _ (hdec4 _ (by omega) h4)
      (hdec4 _ (by omega) (by omega))]
    omega
  · rw [hce]
    simp only [List.cons_append, List.cons_lt_cons_iff, hes]
    simp
    omega
  · simp only [List.cons_append, List.cons_lt_cons_iff, hplusminus]
    simp
    omega
  · rw [hdf]
    simp only [List.cons_append, List.cons_lt_cons_iff, hfs]
    simp
    omega
  · rw [List.cons_append, List.cons_append, cons_lt_cons_same,
      append_lt_append_iff (by simp), pad_lt_pad_iff (by omega) (by omega),
      hinj6 _ _ (by omega) (by omega)]
    omega

/-! ## Reading a text back -/

/-- A separator and a numeral of `w` digits; the numeral and what follows it. -/
def takeField (c : Char) (w : Nat) : List Char → Option (Nat × List Char)
  | [] => none
  | d :: cs => if d = c then (readDigits 0 (cs.take w)).map fun n => (n, cs.drop w) else none

def takeYear : List Char → Option (Int × List Char)
  | '+' :: cs => (readDigits 0 (cs.take 6)).map fun (n : Nat) => ((n : Int), cs.drop 6)
  | '-' :: cs => (readDigits 0 (cs.take 6)).map fun (n : Nat) => (-(n : Int), cs.drop 6)
  | cs => (readDigits 0 (cs.take 4)).map fun (n : Nat) => ((n : Int), cs.drop 4)

def readCivil? (cs : List Char) : Option CivilTime := do
  let (year, cs) ← takeYear cs
  let (month, cs) ← takeField '-' 2 cs
  let (day, cs) ← takeField '-' 2 cs
  let (hour, cs) ← takeField 'T' 2 cs
  let (minute, cs) ← takeField ':' 2 cs
  let (second, cs) ← takeField ':' 2 cs
  let (milli, _) ← takeField '.' 3 cs
  return { year, month, day, hour, minute, second, milli }

theorem takeField_field {w n : Nat} (c : Char) (h : n < 10 ^ w) (x : List Char) :
    takeField c w (c :: (pad w n ++ x)) = some (n, x) := by
  simp [takeField, readDigits_pad h]

theorem takeYear_yearText {y : Int} (h : y.natAbs < 10 ^ 6) (x : List Char) :
    takeYear (yearText y ++ x) = some (y, x) := by
  unfold yearText
  split_ifs with hneg hfour
  · have hy : -(y.natAbs : Int) = y := by omega
    simp only [List.cons_append, takeYear]
    rw [List.take_left' (by simp), List.drop_left' (by simp), readDigits_pad h, Option.map_some, hy]
  · have hlt : y.toNat < 10 ^ 4 := by omega
    obtain ⟨d, cs, hd, hcs⟩ := pad_four_head y.toNat
    have hsign := sign_lt_digit d hd
    have hread : readDigits 0 ((pad 4 y.toNat ++ x).take 4) = some y.toNat := by
      rw [List.take_left' (by simp), readDigits_pad hlt]
    have hdrop : (pad 4 y.toNat ++ x).drop 4 = x := List.drop_left' (by simp)
    rw [hcs, List.cons_append] at *
    have hy : (y.toNat : Int) = y := by omega
    rw [takeYear, hread, hdrop, Option.map_some, hy]
    · intro cs' heq
      exact hsign.2.2.2.2.1 (List.cons.inj heq).1
    · intro cs' heq
      exact hsign.2.2.2.2.2 (List.cons.inj heq).1
  · have hy : (y.toNat : Int) = y := by omega
    simp only [List.cons_append, takeYear]
    rw [List.take_left' (by simp), List.drop_left' (by simp), readDigits_pad (by omega),
      Option.map_some, hy]

theorem readCivil?_isoText (ms : Int) (h : (yearOf ms).natAbs < 10 ^ 6) :
    readCivil? (isoText (civil ms)) = some (civil ms) := by
  obtain ⟨hm, hd, hh, hM, hs, hS⟩ := civil_bounds ms
  have hyear : (civil ms).year.natAbs < 10 ^ 6 := h
  simp only [readCivil?, isoText, restText, takeYear_yearText hyear, takeField_field _ hm,
    takeField_field _ hd, takeField_field _ hh, takeField_field _ hM, takeField_field _ hs,
    takeField_field _ hS, Option.bind_eq_bind, Option.bind_some]
  rfl

/-! ## Timestamps -/

/-- An instant a `Date` can hold: at most 100,000,000 days from the epoch. -/
structure Timestamp where
  ms : Int
  inRange : -8640000000000000 ≤ ms ∧ ms ≤ 8640000000000000
  deriving DecidableEq

namespace Timestamp

/-- The epoch is an instant. -/
theorem zero_inRange : -8640000000000000 ≤ (0 : Int) ∧ (0 : Int) ≤ 8640000000000000 := by decide

theorem ext_ms {a b : Timestamp} (h : a.ms = b.ms) : a = b := by
  cases a; cases b; simp_all

/-- The `Date` at a number of milliseconds, when it is in range. -/
def ofMs? (ms : Int) : Option Timestamp :=
  if h : -8640000000000000 ≤ ms ∧ ms ≤ 8640000000000000 then some ⟨ms, h⟩ else none

theorem ofMs?_eq_some {ms : Int} {t : Timestamp} : ofMs? ms = some t ↔ t.ms = ms := by
  unfold ofMs?
  split_ifs with h
  · rw [Option.some.injEq]
    exact ⟨fun heq => by rw [← heq], fun heq => ext_ms heq.symm⟩
  · have := t.inRange
    simp only [false_iff]
    rintro rfl
    exact h this

@[simp] theorem ofMs?_ms (t : Timestamp) : ofMs? t.ms = some t := ofMs?_eq_some.mpr rfl

/-- Between two instants there are only instants. -/
theorem ofMs?_of_between {a b : Timestamp} {ms : Int} (ha : a.ms ≤ ms) (hb : ms ≤ b.ms) :
    ∃ t, ofMs? ms = some t := by
  have hrange : -8640000000000000 ≤ ms ∧ ms ≤ 8640000000000000 :=
    ⟨a.inRange.1.trans ha, hb.trans b.inRange.2⟩
  exact ⟨⟨ms, hrange⟩, dif_pos hrange⟩

/-- The text of an instant, `toISOString` in JavaScript. -/
def text (t : Timestamp) : String := String.ofList (isoText (civil t.ms))

/-- The instant a text denotes, when it is the text of one. -/
def ofText? (s : String) : Option Timestamp :=
  ((readCivil? s.toList).bind fun c => ofMs? c.instant).filter fun t => t.text = s

theorem year_natAbs_lt (t : Timestamp) : (yearOf t.ms).natAbs < 10 ^ 6 := by
  have hrange := t.inRange
  have hyear := yearFromDay_spec (t.ms / msPerDay)
  unfold yearOf
  generalize yearFromDay (t.ms / msPerDay) = y at *
  unfold dayFromYear msPerDay at hyear
  omega

/-- **Text roundtrip**: the text of an instant reads back as the instant. -/
@[simp] theorem ofText?_text (t : Timestamp) : ofText? t.text = some t := by
  have hread : readCivil? t.text.toList = some (civil t.ms) := by
    rw [text, String.toList_ofList, readCivil?_isoText t.ms t.year_natAbs_lt]
  rw [ofText?, hread, Option.bind_some, instant_civil, ofMs?_ms]
  simp

/-- A text that reads as an instant is that instant's text. -/
theorem text_ofText? {s : String} {t : Timestamp} (h : ofText? s = some t) : t.text = s := by
  simpa using (Option.filter_eq_some_iff.mp h).2

theorem text_inj {a b : Timestamp} (h : a.text = b.text) : a = b := by
  have hread := ofText?_text a
  rw [h, ofText?_text] at hread
  exact (Option.some.inj hread).symm

/-- Four-digit years are those whose texts have 24 characters. -/
theorem length_text (t : Timestamp) :
    t.text.length = 24 ↔ 0 ≤ yearOf t.ms ∧ yearOf t.ms ≤ 9999 := by
  rw [text, String.length_ofList, isoText, List.length_append, length_restText, length_yearText]
  have hyear : (civil t.ms).year = yearOf t.ms := rfl
  rw [hyear]
  split_ifs <;> omega

theorem getLast?_text (t : Timestamp) : t.text.toList.getLast? = some 'Z' := by
  rw [text, String.toList_ofList, isoText, List.getLast?_append, getLast?_restText]
  rfl

/-! ### The order of texts -/

theorem text_lt_iff_isoText {a b : Timestamp} :
    a.text < b.text ↔ isoText (civil a.ms) < isoText (civil b.ms) := by
  rw [String.lt_iff_toList_lt, text, text, String.toList_ofList, String.toList_ofList]

/-- Inside one year the texts are ordered like the instants. -/
theorem text_lt_iff_of_year_eq {a b : Timestamp} (hyear : yearOf a.ms = yearOf b.ms) :
    a.text < b.text ↔ a.ms < b.ms := by
  have hforward : ∀ {a b : Timestamp}, yearOf a.ms = yearOf b.ms → a.ms < b.ms →
      a.text < b.text := by
    intro a b hyear hlt
    have hcivil : (civil a.ms).year = (civil b.ms).year := hyear
    rw [text_lt_iff_isoText, isoText, isoText, hcivil, append_lt_append_iff rfl]
    exact Or.inr ⟨rfl, restText_lt hlt hyear⟩
  refine ⟨fun htext => ?_, hforward hyear⟩
  rcases lt_trichotomy a.ms b.ms with h | h | h
  · exact h
  · rw [ext_ms h] at htext
    exact absurd htext (String.lt_irrefl _)
  · exact absurd (String.lt_trans htext (hforward hyear.symm h)) (String.lt_irrefl _)

/-- Between different years the years decide, in the order of their texts. -/
theorem text_lt_iff_of_year_ne {a b : Timestamp} (hyear : yearOf a.ms ≠ yearOf b.ms) :
    a.text < b.text ↔ yearBefore (yearOf a.ms) (yearOf b.ms) := by
  rw [text_lt_iff_isoText]
  exact isoText_lt_iff_of_year_ne hyear a.year_natAbs_lt b.year_natAbs_lt

/-- Inside the years 0000 to 9999 the texts are ordered like the instants. -/
theorem text_lt_iff_of_fourDigit {a b : Timestamp} (ha : 0 ≤ yearOf a.ms ∧ yearOf a.ms ≤ 9999)
    (hb : 0 ≤ yearOf b.ms ∧ yearOf b.ms ≤ 9999) : a.text < b.text ↔ a.ms < b.ms := by
  by_cases hyear : yearOf a.ms = yearOf b.ms
  · exact text_lt_iff_of_year_eq hyear
  · rw [text_lt_iff_of_year_ne hyear]
    have hle : a.ms < b.ms ↔ yearOf a.ms < yearOf b.ms := by
      constructor
      · intro hlt
        have := yearOf_mono (le_of_lt hlt)
        omega
      · intro hlt
        by_contra hge
        have := yearOf_mono (show b.ms ≤ a.ms by omega)
        omega
    rw [hle]
    unfold yearBefore
    omega

/-- **The texts of two instants** are ordered as these are, except across the year 10000 and between
two years before the year 0. -/
theorem text_lt_iff_of_lt {a b : Timestamp} (hlt : a.ms < b.ms) :
    a.text < b.text ↔ (9999 < yearOf b.ms → 9999 < yearOf a.ms) ∧
      (yearOf b.ms < 0 → yearOf a.ms = yearOf b.ms) := by
  have hmono := yearOf_mono hlt.le
  by_cases hyear : yearOf a.ms = yearOf b.ms
  · rw [text_lt_iff_of_year_eq hyear]
    omega
  · rw [text_lt_iff_of_year_ne hyear, yearBefore]
    omega

/-- At most one year's boundary lies inside 365 days. -/
theorem yearOf_le_succ {a b : Int} (h : b - a ≤ 365 * msPerDay) : yearOf b ≤ yearOf a + 1 := by
  have ha := yearFromDay_spec (a / msPerDay)
  have hb := yearFromDay_spec (b / msPerDay)
  have hdays : b / msPerDay ≤ a / msPerDay + 365 := by unfold msPerDay at *; omega
  unfold yearOf
  by_contra hgt
  have hmono := dayFromYear_mono (show yearFromDay (a / msPerDay) + 1 + 1 ≤
    yearFromDay (b / msPerDay) by omega)
  have hlen := dayFromYear_succ (yearFromDay (a / msPerDay) + 1)
  omega

/-- When the texts of the ends of an interval of at most a year are ordered
like its ends, so are the text of the start and every text inside. -/
theorem text_lt_of_between {a b c : Timestamp} (hab : a.ms < b.ms) (hbc : b.ms ≤ c.ms)
    (hlen : c.ms - a.ms ≤ 365 * msPerDay) (htext : a.text < c.text) : a.text < b.text := by
  by_cases hyear : yearOf a.ms = yearOf b.ms
  · exact (text_lt_iff_of_year_eq hyear).mpr hab
  · have hsucc := yearOf_le_succ hlen
    have hmono := yearOf_mono (le_of_lt hab)
    have hmono' := yearOf_mono hbc
    have heq : yearOf b.ms = yearOf c.ms := by omega
    rw [text_lt_iff_of_year_ne hyear, heq]
    exact (text_lt_iff_of_year_ne (by omega)).mp htext

end Timestamp

/-- A `Date` in JavaScript; `none` is an invalid one. -/
abbrev Date := Option Timestamp

end AtlasManager.Lib
