import AtlasManager.Lib.GoText
import AtlasManager.PowerHelper.Protocol

/-!
# AtlasManager.PowerHelper.Rtc

The helper's access to the real-time clock: it reads the clock and the wake
alarm from two attributes of the kernel, and arms or clears the alarm by
writing whole seconds since 1970.

A replacement clears the alarm before it writes the new one, and either write
is read back and compared with the timestamp that was asked for.

* `readWakeAlarm_epochPayload_iff` -- which timestamps survive being written
  as seconds and read back;
* `schedule_kept_iff` -- exactly when a request arms the instant it names or
  leaves the alarm as it was;
* `cancel_kept` -- a cancellation always does.
-/

namespace AtlasManager.PowerHelper.Rtc

open AtlasManager.Lib AtlasManager.Lib.GoText AtlasManager.PowerHelper.Protocol

/-! ## Reading the attributes -/

def MaxAttributeBytes : Nat := 128

/-- In nanoseconds, as the system clock counts. -/
def MaxRTCClockSkew : Int := 300 * 1000000000

def MaxWriteBytes : Nat := 32

inductive Err
  | unsupported
  | stateUnavailable
  | wakeAlarmAbsent
  | attributeTooLarge
  | operationRejected
  | operationFailed
  deriving DecidableEq, Repr

/-- `FileSystem`, over a device. -/
structure FileSystem (δ : Type) where
  checkSysfs : δ → Except Err Unit
  readSinceEpoch : δ → Except Err Text
  readWakeAlarm : δ → Except Err Text
  writeWakeAlarm : Text → δ → Except Err Unit × δ

/-- The two readings of the system clock around one reading of the device, in
nanoseconds since 1970. -/
structure Clock where
  systemBefore : Int
  systemAfter : Int

structure WakeAlarm where
  state : WakeAlarmState
  scheduledFor : String
  deriving DecidableEq, Repr

def parseAttributeInteger (raw : Text) (allowEmpty : Bool) : Option Nat :=
  if raw.length > MaxAttributeBytes || !utf8Valid raw then none
  else if raw.contains 0 || raw.contains carriageReturn then none
  else if raw = [] then (if allowEmpty then some 0 else none)
  else if raw.getLast? ≠ some newline || raw.count newline ≠ 1 then none
  else
    let value := raw.dropLast
    if value = [] || trimSpace value ≠ value || (value.length > 1 && value.head? = some 48) then
      none
    else (parseDigits value).filter (· < 2 ^ 64)

/-- `Format` of an instant given in milliseconds: years beyond 9999 have more digits,
years before 0 a sign. -/
def format (ms : Int) : String :=
  let year := yearOf ms
  let digits := if year.natAbs < 10 ^ 4 then pad 4 year.natAbs else Nat.toDigits 10 year.natAbs
  String.ofList ((if year < 0 then '-' :: digits else digits) ++ restText (civil ms))

def epochSecondsToTimestamp (seconds : Nat) : Option String :=
  if seconds > 2 ^ 63 - 1 then none
  else
    let value := format (seconds * 1000)
    if value.length ≠ 24 then none
    else if isCanonicalTimestamp value then some value else none

def parseCanonicalTimestamp (value : String) : Option Timestamp :=
  if isCanonicalTimestamp value then Timestamp.ofText? value else none

/-- The first instant of the year 1, the zero value of `time.Time`. -/
def zeroTime : Timestamp := ⟨-62135596800000, by decide⟩

def parseRequiredTimestamp (value : String) : Timestamp :=
  (parseCanonicalTimestamp value).getD zeroTime

variable {δ : Type}

def readRTC (fs : FileSystem δ) (clock : Clock) (d : δ) : Except Err String :=
  match fs.checkSysfs d with
  | .error _ => .error .unsupported
  | .ok () =>
    match fs.readSinceEpoch d with
    | .error .unsupported => .error .unsupported
    | .error _ => .error .stateUnavailable
    | .ok raw =>
      match (parseAttributeInteger raw false).bind epochSecondsToTimestamp with
      | none => .error .stateUnavailable
      | some rtcTime =>
        match Timestamp.ofText? rtcTime with
        | none => .error .stateUnavailable
        | some parsed =>
          if parsed.ms * 1000000 < clock.systemBefore - MaxRTCClockSkew ∨
              clock.systemAfter + MaxRTCClockSkew < parsed.ms * 1000000 then
            .error .stateUnavailable
          else .ok rtcTime

def readWakeAlarm (fs : FileSystem δ) (d : δ) : Except Err WakeAlarm :=
  match fs.readWakeAlarm d with
  | .error .wakeAlarmAbsent => .ok ⟨.unsupported, ""⟩
  | .error _ => .error .stateUnavailable
  | .ok raw =>
    if raw = [] ∨ raw = [newline] then .ok ⟨.notScheduled, ""⟩
    else
      match parseAttributeInteger raw false with
      | none => .error .stateUnavailable
      | some seconds =>
        if seconds = 0 then .error .stateUnavailable
        else
          match epochSecondsToTimestamp seconds with
          | none => .error .stateUnavailable
          | some scheduledFor => .ok ⟨.scheduled, scheduledFor⟩

/-! ## Changing the alarm -/

def epochPayload (value : String) : Option Text :=
  match parseCanonicalTimestamp value with
  | none => none
  | some parsed =>
    -- `Unix` counts whole seconds
    let payload := formatInt (parsed.ms / 1000) ++ [newline]
    if payload.length ≤ MaxWriteBytes then some payload else none

/-- What `writeAndVerify` writes for an alarm. -/
def payloadOf (expected : WakeAlarm) : Option Text :=
  if expected.state = .scheduled then epochPayload expected.scheduledFor
  else some [48, newline]

def writeAndVerify (fs : FileSystem δ) (expected : WakeAlarm) (d : δ) : Except Err Unit × δ :=
  match payloadOf expected with
  | none => (.error .operationRejected, d)
  | some payload =>
    if payload.length > MaxWriteBytes then (.error .operationFailed, d)
    else
      match fs.writeWakeAlarm payload d with
      | (.error _, d) => (.error .operationFailed, d)
      | (.ok (), d) =>
        match readWakeAlarm fs d with
        | .error _ => (.error .operationFailed, d)
        | .ok observed =>
          if observed.state ≠ expected.state ∨
              (expected.state = .scheduled ∧ observed.scheduledFor ≠ expected.scheduledFor) then
            (.error .operationFailed, d)
          else (.ok (), d)

inductive Outcome
  | scheduled
  | unchanged
  | replaced
  | notScheduled
  | cancelled
  deriving DecidableEq, Repr

structure Mutation where
  before : WakeAlarm
  after : WakeAlarm
  outcome : Outcome
  deriving DecidableEq, Repr

/-- `Schedule` once the requested instant is known to lie ahead. -/
def scheduleFrom (fs : FileSystem δ) (scheduledFor : String) (d : δ) : Except Err Mutation × δ :=
  match readWakeAlarm fs d with
  | .error e => (.error e, d)
  | .ok before =>
    if before.state = .unsupported then (.error .unsupported, d)
    else
      let after : WakeAlarm := ⟨.scheduled, scheduledFor⟩
      if before.state = .scheduled ∧ before.scheduledFor = scheduledFor then
        (.ok ⟨before, before, .unchanged⟩, d)
      else if before.state = .notScheduled then
        match writeAndVerify fs after d with
        | (.error e, d) => (.error e, d)
        | (.ok (), d) => (.ok ⟨before, after, .scheduled⟩, d)
      else
        match writeAndVerify fs ⟨.notScheduled, ""⟩ d with
        | (.error e, d) => (.error e, d)
        | (.ok (), d) =>
          match writeAndVerify fs after d with
          | (.error e, d) => (.error e, d)
          | (.ok (), d) => (.ok ⟨before, after, .replaced⟩, d)

def schedule (fs : FileSystem δ) (clock : Clock) (scheduledFor : String) (d : δ) :
    Except Err Mutation × δ :=
  match readRTC fs clock d with
  | .error e => (.error e, d)
  | .ok rtcTime =>
    match parseCanonicalTimestamp scheduledFor with
    | none => (.error .operationRejected, d)
    | some requested =>
      if ¬ (parseRequiredTimestamp rtcTime).ms < requested.ms then (.error .operationRejected, d)
      else scheduleFrom fs scheduledFor d

def cancel (fs : FileSystem δ) (clock : Clock) (d : δ) : Except Err Mutation × δ :=
  match readRTC fs clock d with
  | .error e => (.error e, d)
  | .ok _ =>
    match readWakeAlarm fs d with
    | .error e => (.error e, d)
    | .ok before =>
      if before.state = .unsupported then (.error .unsupported, d)
      else if before.state = .notScheduled then (.ok ⟨before, before, .notScheduled⟩, d)
      else
        match writeAndVerify fs ⟨.notScheduled, ""⟩ d with
        | (.error e, d) => (.error e, d)
        | (.ok (), d) => (.ok ⟨before, ⟨.notScheduled, ""⟩, .cancelled⟩, d)

/-! ## The device -/

inductive Alarm
  /-- The device has no wake alarm. -/
  | absent
  | off
  /-- Armed for a second since 1970. -/
  | armed (second : Int)
  deriving DecidableEq, Repr

/-- A device that stores the whole second written to it. -/
structure Device where
  sysfs : Bool
  sinceEpoch : Text
  /-- What the attribute reads while the alarm is off. -/
  idle : Text
  idle_blank : idle = [] ∨ idle = [newline]
  alarm : Alarm

namespace Device

def wakealarm (d : Device) : Except Err Text :=
  match d.alarm with
  | .absent => .error .wakeAlarmAbsent
  | .off => .ok d.idle
  | .armed second => .ok (formatInt second ++ [newline])

/-- The second a payload names. -/
def writtenSecond (payload : Text) : Option Int :=
  match cut newline payload with
  | some (45 :: digits, []) => (parseDigits digits).map fun (n : Nat) => -(n : Int)
  | some (digits, []) => (parseDigits digits).map fun (n : Nat) => (n : Int)
  | _ => none

/-- Second 0 turns the alarm off; what names no second is refused. -/
def write (payload : Text) (d : Device) : Except Err Unit × Device :=
  if d.alarm = .absent then (.error .operationFailed, d)
  else
    match writtenSecond payload with
    | none => (.error .operationFailed, d)
    | some second =>
      (.ok (), { d with alarm := if second = 0 then .off else .armed second })

end Device

def device : FileSystem Device where
  checkSysfs d := if d.sysfs then .ok () else .error .unsupported
  readSinceEpoch d := .ok d.sinceEpoch
  readWakeAlarm := Device.wakealarm
  writeWakeAlarm := Device.write

/-! ## What is read back -/

/-- What the attribute says is the last line's numeral, and it fits 64 bits. -/
theorem parseDigits_of_parseAttributeInteger {raw : Text} {n : Nat}
    (h : parseAttributeInteger raw false = some n) :
    parseDigits raw.dropLast = some n ∧ n < 2 ^ 64 := by
  unfold parseAttributeInteger at h
  dsimp only at h
  split_ifs at h with _ _ _ hallow
  · exact hallow.elim
  · simpa [Option.filter_eq_some_iff] using h

private theorem ascii_of_isDigit {b : UInt8} (h : isDigit b = true) :
    b < 0x80 ∧ b ≠ 0 ∧ b ≠ carriageReturn ∧ b ≠ newline ∧ isVisible b = true := by
  unfold isDigit at h
  refine ⟨?_, ?_, ?_, ?_, ?_⟩ <;> grind [carriageReturn, newline, isVisible]

theorem parseAttributeInteger_decimal {n : Nat} (h : n < 2 ^ 64) :
    parseAttributeInteger (decimal n ++ [newline]) false = some n := by
  have hdigit : ∀ b ∈ decimal n, isDigit b = true := fun b hb => isDigit_of_mem_decimal hb
  have hne := decimal_ne_nil n
  have hlength : (decimal n).length ≤ 20 := length_decimal_le (h.trans (by decide))
  have hutf8 : utf8Valid (decimal n ++ [newline]) = true := by
    refine utf8Valid_of_ascii fun b hb => ?_
    rcases List.mem_append.mp hb with hmem | hend
    · exact (ascii_of_isDigit (hdigit b hmem)).1
    · rw [List.mem_singleton.mp hend]
      decide
  have hnul : (decimal n ++ [newline]).contains 0 = false := by
    rw [← Bool.not_eq_true, List.contains_iff_mem]
    intro hmem
    rcases List.mem_append.mp hmem with hmem | hend
    · exact (ascii_of_isDigit (hdigit 0 hmem)).2.1 rfl
    · exact absurd (List.mem_singleton.mp hend) (by decide)
  have hreturn : (decimal n ++ [newline]).contains carriageReturn = false := by
    rw [← Bool.not_eq_true, List.contains_iff_mem]
    intro hmem
    rcases List.mem_append.mp hmem with hmem | hend
    · exact (ascii_of_isDigit (hdigit _ hmem)).2.2.1 rfl
    · exact absurd (List.mem_singleton.mp hend) (by decide)
  have hcount : (decimal n ++ [newline]).count newline = 1 := by
    rw [List.count_append, List.count_eq_zero_of_not_mem]
    · simp
    · exact fun hmem => (ascii_of_isDigit (hdigit _ hmem)).2.2.2.1 rfl
  have htrim : trimSpace (decimal n) = decimal n := by
    refine trimSpace_eq_self (fun b hb => ?_) fun b hb => ?_
    · exact (ascii_of_isDigit (hdigit b (List.mem_of_mem_head? hb))).2.2.2.2
    · exact (ascii_of_isDigit (hdigit b (List.mem_of_mem_getLast? hb))).2.2.2.2
  have hzero : ¬ ((decimal n).length > 1 ∧ (decimal n).head? = some 48) :=
    fun hhead => head_decimal_ne hhead.1 hhead.2
  unfold parseAttributeInteger
  simp only [hutf8, hnul, hreturn, hcount, List.dropLast_concat, htrim, parseDigits_decimal]
  simp [MaxAttributeBytes, hne, Option.filter]
  grind

/-- Only seconds from 0 on, and only those of 64 bits, are read. -/
theorem parseAttributeInteger_formatInt (second : Int) :
    parseAttributeInteger (formatInt second ++ [newline]) false =
      if 0 ≤ second ∧ second < 2 ^ 64 then some second.toNat else none := by
  unfold formatInt
  by_cases hneg : second < 0
  · rw [if_pos hneg, if_neg (by omega)]
    by_contra hsome
    obtain ⟨n, hn⟩ := Option.ne_none_iff_exists'.mp hsome
    have hdigits := (parseDigits_of_parseAttributeInteger hn).1
    rw [List.cons_append, ← List.cons_append, List.dropLast_concat] at hdigits
    simp [parseDigits, isDigit] at hdigits
  · rw [if_neg hneg]
    have hnat : second.natAbs = second.toNat := by omega
    rw [hnat]
    by_cases hlarge : second < 2 ^ 64
    · rw [if_pos ⟨by omega, hlarge⟩]
      exact parseAttributeInteger_decimal (by omega)
    · rw [if_neg (by omega)]
      by_contra hsome
      obtain ⟨n, hn⟩ := Option.ne_none_iff_exists'.mp hsome
      have hdigits := parseDigits_of_parseAttributeInteger hn
      rw [List.dropLast_concat, parseDigits_decimal, Option.some.injEq] at hdigits
      omega

/-- In four-digit years `Format` writes the text of the instant. -/
theorem format_ms {t : Timestamp} (h : FourDigitYear t) : format t.ms = t.text := by
  unfold FourDigitYear at h
  have hyear : (civil t.ms).year = yearOf t.ms := rfl
  have hnat : (yearOf t.ms).natAbs = (yearOf t.ms).toNat := by omega
  unfold format Timestamp.text isoText yearText
  rw [hyear, if_neg (by omega : ¬ yearOf t.ms < 0), if_pos h.2]
  simp only [if_neg (by omega : ¬ yearOf t.ms < 0), hnat,
    if_pos (by omega : (yearOf t.ms).toNat < 10 ^ 4)]

/-- Later years have more than four digits. -/
theorem length_format {ms : Int} (h : 9999 < yearOf ms) : (format ms).length ≠ 24 := by
  have hlong : 4 < (Nat.toDigits 10 (yearOf ms).natAbs).length := by
    by_contra hle
    have := (Nat.length_toDigits_le_iff (by decide) (by decide)).mp (not_lt.mp hle)
    omega
  unfold format
  simp only [if_neg (by omega : ¬ yearOf ms < 0),
    if_neg (by omega : ¬ (yearOf ms).natAbs < 10 ^ 4), String.length_ofList, List.length_append,
    length_restText]
  omega

/-- Instants of four-digit years are in the range of a `Timestamp`. -/
theorem exists_timestamp {ms : Int} (h0 : 0 ≤ ms) (h : yearOf ms ≤ 9999) :
    ∃ t : Timestamp, t.ms = ms := by
  have hspec := (yearFromDay_spec (ms / msPerDay)).2
  have hmono := dayFromYear_mono (show yearFromDay (ms / msPerDay) + 1 ≤ 10000 by
    unfold yearOf at h
    omega)
  have hday : dayFromYear 10000 = 2932897 := by decide
  have hms : ms < 2932897 * msPerDay := by
    unfold msPerDay at *
    omega
  exact ⟨⟨ms, by unfold msPerDay at hms; omega⟩, rfl⟩

theorem epochSecondsToTimestamp_eq_some {seconds : Nat} {value : String} :
    epochSecondsToTimestamp seconds = some value ↔
      ∃ t : Timestamp, t.text = value ∧ t.ms = 1000 * seconds ∧ FourDigitYear t := by
  have hnonneg : (0 : Int) ≤ seconds * 1000 := by omega
  constructor
  · intro h
    unfold epochSecondsToTimestamp at h
    simp only at h
    by_cases hyear : yearOf (seconds * 1000) ≤ 9999
    · obtain ⟨t, ht⟩ := exists_timestamp hnonneg hyear
      have hfour : FourDigitYear t := by
        have hmono := yearOf_mono hnonneg
        have hepoch : yearOf 0 = 1970 := by decide
        unfold FourDigitYear
        rw [ht]
        omega
      rw [← ht, format_ms hfour] at h
      split_ifs at h
      exact ⟨t, Option.some.inj h, by omega, hfour⟩
    · rw [if_pos (length_format (by omega))] at h
      split_ifs at h
  · rintro ⟨t, rfl, hms, hyear⟩
    have hrange := t.inRange
    unfold epochSecondsToTimestamp
    rw [if_neg (by omega)]
    have heq : (seconds : Int) * 1000 = t.ms := by omega
    simp only [heq, format_ms hyear]
    rw [if_neg (not_not.mpr (t.length_text.mpr hyear)),
      if_pos (isCanonicalTimestamp_text.mpr hyear)]

/-- What a reading of the alarm says about the device. -/
def Denotes (wakeAlarm : WakeAlarm) : Alarm → Prop
  | .absent => wakeAlarm = ⟨.unsupported, ""⟩
  | .off => wakeAlarm = ⟨.notScheduled, ""⟩
  | .armed second => ∃ t : Timestamp, wakeAlarm = ⟨.scheduled, t.text⟩ ∧
      t.ms = 1000 * second ∧ 1 ≤ second ∧ FourDigitYear t

/-- **Reading the alarm**: what is read is what the device holds, and an alarm at the
second 0, before it, or beyond the year 9999 is not read at all. -/
theorem readWakeAlarm_eq_ok {d : Device} {wakeAlarm : WakeAlarm} :
    readWakeAlarm device d = .ok wakeAlarm ↔ Denotes wakeAlarm d.alarm := by
  rw [readWakeAlarm, show device.readWakeAlarm d = d.wakealarm from rfl, Device.wakealarm]
  cases halarm : d.alarm with
  | absent => simp [Denotes, eq_comm]
  | off =>
      have hidle := d.idle_blank
      simp [Denotes, hidle, eq_comm]
  | armed second =>
      have hraw : ¬ (formatInt second ++ [newline] = [] ∨
          formatInt second ++ [newline] = [newline]) := by
        unfold formatInt
        split_ifs <;> simp [decimal_ne_nil]
      simp only [if_neg hraw, parseAttributeInteger_formatInt, Denotes]
      by_cases hrange : 0 ≤ second ∧ second < 2 ^ 64
      · rw [if_pos hrange]
        by_cases hzero : second.toNat = 0
        · simp only [if_pos hzero]
          constructor
          · simp
          · rintro ⟨t, _, _, hpos, _⟩
            omega
        · simp only [if_neg hzero]
          have hcast : ((second.toNat : Nat) : Int) = second := Int.toNat_of_nonneg hrange.1
          cases hread : epochSecondsToTimestamp second.toNat with
          | none =>
              constructor
              · simp
              · rintro ⟨t, _, hms, _, hyear⟩
                have hsome := epochSecondsToTimestamp_eq_some.mpr
                  ⟨t, rfl, by rw [hcast, hms], hyear⟩
                rw [hread] at hsome
                cases hsome
          | some value =>
              obtain ⟨t, rfl, hms, hyear⟩ := epochSecondsToTimestamp_eq_some.mp hread
              rw [hcast] at hms
              constructor
              · intro h
                cases h
                exact ⟨t, rfl, hms, by omega, hyear⟩
              · rintro ⟨u, rfl, hms', _, _⟩
                rw [Timestamp.ext_ms (hms'.trans hms.symm)]
      · rw [if_neg hrange]
        constructor
        · simp
        · rintro ⟨t, _, hms, hpos, _⟩
          have := t.inRange
          omega

/-- Two readings of one alarm agree. -/
theorem Denotes.unique {alarm : Alarm} {v w : WakeAlarm} (hv : Denotes v alarm)
    (hw : Denotes w alarm) : v = w := by
  cases alarm with
  | absent => rw [hv, hw]
  | off => rw [hv, hw]
  | armed second =>
      obtain ⟨t, rfl, ht, _⟩ := hv
      obtain ⟨u, rfl, hu, _⟩ := hw
      rw [Timestamp.ext_ms (ht.trans hu.symm)]

/-! ## What is written -/

theorem parseCanonicalTimestamp_text {t : Timestamp} (h : FourDigitYear t) :
    parseCanonicalTimestamp t.text = some t := by
  simp [parseCanonicalTimestamp, isCanonicalTimestamp_text.mpr h]

theorem length_formatInt {second : Int} (h : second.natAbs < 10 ^ 20) :
    (formatInt second).length ≤ 21 := by
  have hlength := length_decimal_le (w := 19) h
  unfold formatInt
  split_ifs
  · rw [List.length_cons]
    omega
  · omega

theorem epochPayload_text {t : Timestamp} (h : FourDigitYear t) :
    epochPayload t.text = some (formatInt (t.ms / 1000) ++ [newline]) := by
  have hrange := t.inRange
  have hlength := @length_formatInt (t.ms / 1000) (by omega)
  unfold epochPayload
  rw [parseCanonicalTimestamp_text h]
  simp [MaxWriteBytes]
  omega

/-- The device takes the second a payload was made from. -/
theorem writtenSecond_formatInt (second : Int) :
    Device.writtenSecond (formatInt second ++ [newline]) = some second := by
  have hdigit : ∀ b ∈ decimal second.natAbs, isDigit b = true :=
    fun b hb => isDigit_of_mem_decimal hb
  have hnewline : newline ∉ decimal second.natAbs :=
    fun hmem => (ascii_of_isDigit (hdigit _ hmem)).2.2.2.1 rfl
  unfold formatInt Device.writtenSecond
  by_cases hneg : second < 0
  · have hcut : newline ∉ 45 :: decimal second.natAbs := by
      rw [List.mem_cons, not_or]
      exact ⟨by decide, hnewline⟩
    rw [if_pos hneg, cut_append hcut]
    simp only [parseDigits_decimal, Option.map_some, Option.some.injEq]
    omega
  · rw [if_neg hneg, cut_append hnewline]
    have hminus : (decimal second.natAbs).head? ≠ some 45 := fun hhead =>
      absurd (hdigit 45 (List.mem_of_mem_head? (by rw [hhead]; rfl))) (by decide)
    cases hlist : decimal second.natAbs with
    | nil => exact absurd hlist (decimal_ne_nil _)
    | cons b rest =>
        rw [hlist] at hminus
        have hb : b ≠ 45 := by simpa using hminus
        have hread := parseDigits_decimal second.natAbs
        rw [hlist] at hread
        split
        · rename_i heq
          exact absurd (by simpa using (congrArg List.head? (congrArg Prod.fst (Option.some.inj heq))))
            hb
        · rename_i heq
          obtain ⟨rfl, -⟩ := Prod.mk.inj (Option.some.inj heq)
          rw [hread, Option.map_some, Option.some.injEq]
          omega
        · simp_all

/-- The alarm after a second was written to a device that has one. -/
def Alarm.ofSecond (second : Int) : Alarm := if second = 0 then .off else .armed second

theorem write_formatInt {d : Device} (second : Int) (h : d.alarm ≠ .absent) :
    Device.write (formatInt second ++ [newline]) d =
      (.ok (), { d with alarm := .ofSecond second }) := by
  rw [Device.write, if_neg h, writtenSecond_formatInt]
  rfl

/-- Clearing the alarm succeeds. -/
theorem writeAndVerify_clear {d : Device} (h : d.alarm ≠ .absent) :
    writeAndVerify device ⟨.notScheduled, ""⟩ d = (.ok (), { d with alarm := .off }) := by
  have hpayload : ([48, newline] : Text) = formatInt 0 ++ [newline] := by
    simp [formatInt, decimal]
  have hwrite := write_formatInt 0 h
  have hread := readWakeAlarm_eq_ok (d := { d with alarm := .off }).mpr
    (show Denotes ⟨.notScheduled, ""⟩ .off from rfl)
  rw [← hpayload] at hwrite
  unfold writeAndVerify payloadOf
  simp only [reduceCtorEq, if_false]
  rw [if_neg (by simp [MaxWriteBytes])]
  rw [show device.writeWakeAlarm = Device.write from rfl, hwrite]
  simp only [Alarm.ofSecond, if_true]
  rw [hread]
  simp

/-- Arming writes the whole seconds of the timestamp; what is read back is the
timestamp when it has no fraction of a second and lies after second 0. -/
theorem writeAndVerify_arm {d : Device} {t : Timestamp} (h : d.alarm ≠ .absent)
    (hyear : FourDigitYear t) :
    writeAndVerify device ⟨.scheduled, t.text⟩ d =
      (if t.ms % 1000 = 0 ∧ 0 < t.ms then .ok () else .error .operationFailed,
        { d with alarm := .ofSecond (t.ms / 1000) }) := by
  have hrange := t.inRange
  have hlength := @length_formatInt (t.ms / 1000) (by omega)
  have hsize : ¬ (formatInt (t.ms / 1000) ++ [newline]).length > MaxWriteBytes := by
    simp [MaxWriteBytes]
    omega
  unfold writeAndVerify payloadOf
  simp only [if_true, epochPayload_text hyear]
  rw [if_neg hsize, show device.writeWakeAlarm = Device.write from rfl, write_formatInt _ h]
  dsimp only
  by_cases hwhole : t.ms % 1000 = 0 ∧ 0 < t.ms
  · rw [if_pos hwhole]
    have hsecond : Alarm.ofSecond (t.ms / 1000) = .armed (t.ms / 1000) :=
      if_neg (by omega)
    have hread := readWakeAlarm_eq_ok (d := { d with alarm := .ofSecond (t.ms / 1000) }).mpr
      (show Denotes ⟨.scheduled, t.text⟩ (.ofSecond (t.ms / 1000)) by
        rw [hsecond]
        exact ⟨t, rfl, by omega, by omega, hyear⟩)
    rw [hread]
    simp
  · rw [if_neg hwhole]
    cases hread : readWakeAlarm device { d with alarm := .ofSecond (t.ms / 1000) } with
    | error e => rfl
    | ok observed =>
        have hdenotes := readWakeAlarm_eq_ok.mp hread
        dsimp only at hdenotes ⊢
        rw [if_pos]
        by_cases hzero : t.ms / 1000 = 0
        · rw [Alarm.ofSecond, if_pos hzero] at hdenotes
          rw [show observed = _ from hdenotes]
          simp
        · rw [Alarm.ofSecond, if_neg hzero] at hdenotes
          obtain ⟨u, rfl, hms, hpos, _⟩ := hdenotes
          right
          refine ⟨trivial, fun heq => hwhole ?_⟩
          have := Timestamp.text_inj heq
          subst this
          omega

/-- **Exactness of the payload**: writing a timestamp as seconds and reading it back
gives the timestamp when, and only when, it has no fraction of a second and lies after
the first second of 1970. -/
theorem readWakeAlarm_epochPayload_iff {d : Device} {t : Timestamp} {payload : Text}
    (h : d.alarm ≠ .absent) (hyear : FourDigitYear t) (hp : epochPayload t.text = some payload) :
    readWakeAlarm device (Device.write payload d).2 = .ok ⟨.scheduled, t.text⟩ ↔
      t.ms % 1000 = 0 ∧ 0 < t.ms := by
  rw [epochPayload_text hyear, Option.some.injEq] at hp
  rw [← hp, write_formatInt _ h, readWakeAlarm_eq_ok]
  dsimp only
  by_cases hzero : t.ms / 1000 = 0
  · rw [Alarm.ofSecond, if_pos hzero]
    simp only [Denotes, WakeAlarm.mk.injEq, reduceCtorEq, false_and, false_iff]
    omega
  · rw [Alarm.ofSecond, if_neg hzero]
    constructor
    · rintro ⟨u, heq, hms, hpos, _⟩
      have := Timestamp.text_inj (WakeAlarm.mk.inj heq).2
      subst this
      omega
    · intro hwhole
      exact ⟨t, rfl, by omega, by omega, hyear⟩

/-! ## Requests -/

/-- The second of an alarm the helper can read; an alarm that is off counts as second
0, and the last one is the last second of the year 9999. -/
def Alarm.second? : Alarm → Option Int
  | .absent => none
  | .off => some 0
  | .armed second => if 1 ≤ second ∧ second ≤ 253402300799 then some second else none

theorem fourDigitYear_iff {t : Timestamp} (h : 0 ≤ t.ms) :
    FourDigitYear t ↔ t.ms ≤ 253402300799999 := by
  have hepoch := yearOf_mono h
  have hzero : yearOf 0 = 1970 := by decide
  have hlast : yearOf 253402300799999 = 9999 := by decide
  have hnext : yearOf 253402300800000 = 10000 := by decide
  unfold FourDigitYear
  constructor
  · intro hyear
    by_contra hlate
    have := yearOf_mono (show 253402300800000 ≤ t.ms by omega)
    omega
  · intro hms
    have := yearOf_mono hms
    omega

theorem Alarm.second?_off_or_armed {alarm : Alarm} {second : Int}
    (h : alarm.second? = some second) :
    (alarm = .off ∧ second = 0) ∨ (alarm = .armed second ∧ 1 ≤ second ∧ second ≤ 253402300799) := by
  cases alarm with
  | absent => cases h
  | off => exact Or.inl ⟨rfl, (Option.some.inj h).symm⟩
  | armed s =>
      simp only [Alarm.second?] at h
      split_ifs at h with hrange
      cases h
      exact Or.inr ⟨rfl, hrange⟩

/-- An alarm without a second is not readable, or the device has none. -/
theorem readWakeAlarm_of_second?_eq_none {d : Device} (h : d.alarm.second? = none) :
    (∃ e, readWakeAlarm device d = .error e) ∨
      readWakeAlarm device d = .ok ⟨.unsupported, ""⟩ := by
  cases hread : readWakeAlarm device d with
  | error e => exact Or.inl ⟨e, rfl⟩
  | ok wakeAlarm =>
      have hdenotes := readWakeAlarm_eq_ok.mp hread
      cases halarm : d.alarm with
      | absent =>
          rw [halarm] at hdenotes
          rw [show wakeAlarm = _ from hdenotes]
          exact Or.inr rfl
      | off => simp [halarm, Alarm.second?] at h
      | armed second =>
          rw [halarm] at hdenotes h
          obtain ⟨t, _, hms, hpos, hyear⟩ := hdenotes
          have := (fourDigitYear_iff (by omega)).mp hyear
          simp only [Alarm.second?, ite_eq_right_iff, reduceCtorEq, imp_false] at h
          omega

theorem scheduleFrom_of_second?_eq_none {d : Device} {value : String}
    (h : d.alarm.second? = none) : ∃ e, scheduleFrom device value d = (.error e, d) := by
  unfold scheduleFrom
  rcases readWakeAlarm_of_second?_eq_none h with ⟨e, hread⟩ | hread
  · rw [hread]
    exact ⟨e, rfl⟩
  · rw [hread]
    exact ⟨.unsupported, rfl⟩

/-- A request ahead of the clock, on an alarm the helper can read: nothing is written
for the instant the alarm has, and otherwise the alarm gets the instant's whole second,
which is an answer only when there is no fraction. -/
theorem scheduleFrom_of_second? {d : Device} {t : Timestamp} {second : Int}
    (h : d.alarm.second? = some second) (hyear : FourDigitYear t) (hpos : 0 < t.ms) :
    ∃ before, Denotes before d.alarm ∧ scheduleFrom device t.text d =
      if t.ms = 1000 * second then (.ok ⟨before, before, .unchanged⟩, d)
      else if t.ms % 1000 = 0 then
        (.ok ⟨before, ⟨.scheduled, t.text⟩, if second = 0 then .scheduled else .replaced⟩,
          { d with alarm := .armed (t.ms / 1000) })
      else (.error .operationFailed, { d with alarm := .ofSecond (t.ms / 1000) }) := by
  have hofSecond : t.ms % 1000 = 0 → Alarm.ofSecond (t.ms / 1000) = .armed (t.ms / 1000) :=
    fun hwhole => if_neg (by omega)
  rcases Alarm.second?_off_or_armed h with ⟨halarm, rfl⟩ | ⟨halarm, hone, hlast⟩
  · have hdenotes : Denotes ⟨.notScheduled, ""⟩ d.alarm := by
      rw [halarm]
      rfl
    refine ⟨_, hdenotes, ?_⟩
    have hpresent : d.alarm ≠ .absent := by
      rw [halarm]
      simp
    unfold scheduleFrom
    rw [readWakeAlarm_eq_ok.mpr hdenotes, if_neg (by omega : ¬ t.ms = 1000 * 0)]
    simp only [reduceCtorEq, if_false, false_and, if_true, writeAndVerify_arm hpresent hyear]
    by_cases hwhole : t.ms % 1000 = 0
    · rw [if_pos ⟨hwhole, hpos⟩, if_pos hwhole, hofSecond hwhole]
    · rw [if_neg (fun hboth => hwhole hboth.1), if_neg hwhole]
  · have hrange : ∃ u : Timestamp, u.ms = 1000 * second := ⟨⟨1000 * second, by omega⟩, rfl⟩
    obtain ⟨u, hu⟩ := hrange
    have huyear : FourDigitYear u := (fourDigitYear_iff (by omega)).mpr (by omega)
    have hdenotes : Denotes ⟨.scheduled, u.text⟩ d.alarm := by
      rw [halarm]
      exact ⟨u, rfl, hu, hone, huyear⟩
    refine ⟨_, hdenotes, ?_⟩
    have hpresent : d.alarm ≠ .absent := by
      rw [halarm]
      simp
    unfold scheduleFrom
    rw [readWakeAlarm_eq_ok.mpr hdenotes]
    simp only [reduceCtorEq, if_false, true_and]
    by_cases hsame : t.ms = 1000 * second
    · have htu : u = t := Timestamp.ext_ms (hu.trans hsame.symm)
      rw [htu, if_pos rfl, if_pos hsame]
    · have htext : ¬ u.text = t.text := by
        intro heq
        rw [Timestamp.text_inj heq] at hu
        exact hsame hu
      have hoff : ({ d with alarm := .off } : Device).alarm ≠ .absent := by simp
      rw [if_neg htext, if_neg hsame, writeAndVerify_clear hpresent]
      dsimp only
      rw [writeAndVerify_arm hoff hyear]
      by_cases hwhole : t.ms % 1000 = 0
      · rw [if_pos ⟨hwhole, hpos⟩, if_pos hwhole, hofSecond hwhole,
          if_neg (by omega : ¬ second = 0)]
      · rw [if_neg (fun hboth => hwhole hboth.1), if_neg hwhole]

/-- The time of the clock is read back from its text, and lies after 1970. -/
theorem readRTC_ok {δ : Type} {fs : FileSystem δ} {clock : Clock} {d : δ} {rtcTime : String}
    (h : readRTC fs clock d = .ok rtcTime) : 0 ≤ (parseRequiredTimestamp rtcTime).ms := by
  unfold readRTC at h
  split at h <;> try cases h
  split at h <;> try cases h
  split at h <;> try cases h
  split at h <;> try cases h
  split at h <;> try cases h
  rename_i hvalue _
  obtain ⟨seconds, _, hseconds⟩ := Option.bind_eq_some_iff.mp hvalue
  obtain ⟨t, rfl, hms, hyear⟩ := epochSecondsToTimestamp_eq_some.mp hseconds
  rw [parseRequiredTimestamp, parseCanonicalTimestamp_text hyear, Option.getD_some]
  omega

/-- The name of a change of the alarm. -/
def changeOf (before after : Alarm) : Outcome :=
  if after = before then .unchanged
  else if before = .off then .scheduled
  else .replaced

/-- What a request to wake at `value` owes: an answer stands for the instant being armed
and tells the change that was made, and the instant's payload reads back as the instant;
after an error the alarm is what it was. -/
def Kept (value : String) (before after : Device) : Except Err Mutation → Prop
  | .ok mutation =>
    (∃ (t : Timestamp) (second : Int),
      t.text = value ∧ after.alarm = .armed second ∧ t.ms = 1000 * second) ∧
    Denotes mutation.before before.alarm ∧ Denotes mutation.after after.alarm ∧
    mutation.outcome = changeOf before.alarm after.alarm ∧
    ∃ payload, epochPayload value = some payload ∧
      readWakeAlarm device (Device.write payload after).2 = .ok ⟨.scheduled, value⟩
  | .error _ => after.alarm = before.alarm

/-- The requested instant has a fraction of a second, lies ahead of a clock that can be
read, and the alarm is readable and not the instant's whole second. -/
def LosesFraction (clock : Clock) (t : Timestamp) (d : Device) : Prop :=
  t.ms % 1000 ≠ 0 ∧
  (∃ rtcTime, readRTC device clock d = .ok rtcTime ∧
    (parseRequiredTimestamp rtcTime).ms < t.ms) ∧
  ∃ second, d.alarm.second? = some second ∧ second ≠ t.ms / 1000

/-- An armed instant has what its request was owed. -/
theorem kept_ok {t : Timestamp} {before after : Device} {mutation : Mutation} {second : Int}
    (hyear : FourDigitYear t) (hpos : 0 < t.ms) (hafter : after.alarm = .armed second)
    (hms : t.ms = 1000 * second) (hbefore : Denotes mutation.before before.alarm)
    (hafter' : mutation.after = ⟨.scheduled, t.text⟩)
    (houtcome : mutation.outcome = changeOf before.alarm after.alarm) :
    Kept t.text before after (.ok mutation) := by
  have hdenotes : Denotes mutation.after after.alarm := by
    rw [hafter, hafter']
    exact ⟨t, rfl, hms, by omega, hyear⟩
  have hpayload := epochPayload_text hyear
  have hback := (readWakeAlarm_epochPayload_iff (d := after)
    (by rw [hafter]; simp) hyear hpayload).mpr ⟨by omega, hpos⟩
  exact ⟨⟨t, second, rfl, hafter, hms⟩, hbefore, hdenotes, houtcome, _, hpayload, hback⟩

/-- **Requests**: on a device that stores the whole second written to it, an admitted
request keeps its promise in all states but those in which a fraction of a second is
written as a second that is not the alarm's. -/
theorem schedule_kept_iff (clock : Clock) (d : Device) (value : String)
    (hadmitted : isCanonicalTimestamp value = true) :
    Kept value d (schedule device clock value d).2 (schedule device clock value d).1 ↔
      ∀ t : Timestamp, t.text = value → ¬ LosesFraction clock t d := by
  obtain ⟨t, rfl, hyear⟩ := isCanonicalTimestamp_iff.mp hadmitted
  have honly : (∀ u : Timestamp, u.text = t.text → ¬ LosesFraction clock u d) ↔
      ¬ LosesFraction clock t d := by
    constructor
    · exact fun hall => hall t rfl
    · intro hnot u hu
      rwa [Timestamp.text_inj hu]
  rw [honly]
  unfold schedule
  cases hrtc : readRTC device clock d with
  | error e => simp [Kept, LosesFraction, hrtc]
  | ok rtcTime =>
      simp only [parseCanonicalTimestamp_text hyear]
      by_cases hahead : (parseRequiredTimestamp rtcTime).ms < t.ms
      · rw [if_neg (not_not.mpr hahead)]
        have hpos : 0 < t.ms := lt_of_le_of_lt (readRTC_ok hrtc) hahead
        have hreach : ∃ rtcTime, readRTC device clock d = .ok rtcTime ∧
            (parseRequiredTimestamp rtcTime).ms < t.ms := ⟨rtcTime, hrtc, hahead⟩
        cases hsecond : d.alarm.second? with
        | none =>
            obtain ⟨e, hfrom⟩ := @scheduleFrom_of_second?_eq_none d t.text hsecond
            rw [hfrom]
            simp [Kept, LosesFraction, hsecond]
        | some second =>
            obtain ⟨before, hbefore, hfrom⟩ := scheduleFrom_of_second? hsecond hyear hpos
            rw [hfrom]
            have hloses : LosesFraction clock t d ↔ t.ms % 1000 ≠ 0 ∧ second ≠ t.ms / 1000 := by
              unfold LosesFraction
              rw [hsecond]
              simp [hreach]
            rw [hloses]
            have hcases := Alarm.second?_off_or_armed hsecond
            by_cases hsame : t.ms = 1000 * second
            · rw [if_pos hsame]
              have halarm : d.alarm = .armed second := by
                rcases hcases with ⟨_, rfl⟩ | ⟨halarm, _⟩
                · omega
                · exact halarm
              have htext : before = ⟨.scheduled, t.text⟩ := by
                refine hbefore.unique ?_
                rw [halarm]
                exact ⟨t, rfl, hsame, by omega, hyear⟩
              have hkept : Kept t.text d d (.ok ⟨before, before, .unchanged⟩) :=
                kept_ok hyear hpos halarm hsame hbefore htext (by simp [changeOf])
              exact iff_of_true hkept (by omega)
            · rw [if_neg hsame]
              by_cases hwhole : t.ms % 1000 = 0
              · rw [if_pos hwhole]
                refine iff_of_true (kept_ok hyear hpos rfl (by omega) hbefore rfl ?_)
                  (by simp [hwhole])
                rcases hcases with ⟨halarm, rfl⟩ | ⟨halarm, hone, _⟩
                · simp [changeOf, halarm]
                · have hother : ¬ Alarm.armed (t.ms / 1000) = .armed second := by
                    rw [Alarm.armed.injEq]
                    omega
                  simp only [changeOf, halarm, if_neg hother, reduceCtorEq, if_false]
                  rw [if_neg (by omega)]
              · rw [if_neg hwhole]
                simp only [Kept, Alarm.ofSecond]
                rcases hcases with ⟨halarm, rfl⟩ | ⟨halarm, hone, _⟩
                · rw [halarm]
                  split_ifs <;> simp <;> omega
                · rw [halarm]
                  split_ifs <;> simp <;> omega
      · rw [if_pos hahead]
        simp [Kept, LosesFraction, hrtc, hahead]

/-- A device at noon of 2026-08-01, armed for the same day's 06:20. -/
def armedDevice : Device where
  sysfs := true
  sinceEpoch := bytes "1785585600\n"
  idle := [newline]
  idle_blank := Or.inr rfl
  alarm := .armed 1785565200

/-- The system clock agrees with that device. -/
def noon : Clock := ⟨1785585600000000000, 1785585600000000000⟩

theorem schedule_kept_iff_whole :
    Kept "2026-08-02T09:00:00.000Z" armedDevice
      (schedule device noon "2026-08-02T09:00:00.000Z" armedDevice).2
      (schedule device noon "2026-08-02T09:00:00.000Z" armedDevice).1 := by
  refine (schedule_kept_iff noon armedDevice "2026-08-02T09:00:00.000Z"
    (by decide +kernel)).mpr fun t ht hloses => hloses.1 ?_
  have hread : Timestamp.ofText? "2026-08-02T09:00:00.000Z" = some ⟨1785661200000, by decide⟩ := by
    decide +kernel
  rw [← ht, Timestamp.ofText?_text, Option.some.injEq] at hread
  rw [hread]
  decide

/-- Half a second too much: the request is answered with an error, and the alarm is
another one. -/
theorem schedule_not_kept_fraction :
    ¬ ∀ (clock : Clock) (d : Device) (value : String), isCanonicalTimestamp value = true →
      Kept value d (schedule device clock value d).2 (schedule device clock value d).1 := by
  intro hall
  have hkept := hall noon armedDevice "2026-08-02T09:00:00.500Z" (by decide +kernel)
  have hanswer : (schedule device noon "2026-08-02T09:00:00.500Z" armedDevice).1 =
      .error .operationFailed := by decide +kernel
  have halarm : (schedule device noon "2026-08-02T09:00:00.500Z" armedDevice).2.alarm =
      .armed 1785661200 := by decide +kernel
  rw [hanswer] at hkept
  have hsame : Alarm.armed 1785661200 = .armed 1785565200 := halarm.symm.trans hkept
  exact absurd hsame (by decide)

/-- **Cancellations**: an answer leaves the alarm off and tells the change that was made,
an error leaves the alarm as it was. -/
theorem cancel_kept (clock : Clock) (d : Device) :
    match cancel device clock d with
    | (.ok mutation, after) => after.alarm = .off ∧ Denotes mutation.before d.alarm ∧
        Denotes mutation.after .off ∧
        mutation.outcome = if d.alarm = .off then .notScheduled else .cancelled
    | (.error _, after) => after.alarm = d.alarm := by
  unfold cancel
  cases hrtc : readRTC device clock d with
  | error e => rfl
  | ok rtcTime =>
      dsimp only
      cases hread : readWakeAlarm device d with
      | error e => rfl
      | ok before =>
          have hdenotes := readWakeAlarm_eq_ok.mp hread
          dsimp only
          cases halarm : d.alarm with
          | absent =>
              rw [halarm] at hdenotes
              simp [show before = _ from hdenotes, halarm]
          | off =>
              rw [halarm] at hdenotes
              simp [show before = _ from hdenotes, halarm, Denotes]
          | armed second =>
              have hpresent : d.alarm ≠ .absent := by simp [halarm]
              rw [halarm] at hdenotes
              have hbefore := hdenotes
              obtain ⟨t, rfl, hms, hpos, hyear⟩ := hdenotes
              rw [writeAndVerify_clear hpresent]
              simp only [reduceCtorEq, if_false]
              exact ⟨trivial, hbefore, rfl, trivial⟩

end AtlasManager.PowerHelper.Rtc
