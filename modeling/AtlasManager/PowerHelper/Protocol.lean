import AtlasManager.Lib.Json

/-!
# AtlasManager.PowerHelper.Protocol

What the power helper reads from its caller and answers: the timestamps it
admits, the states of a wake alarm, the request line and the response line.

* `isCanonicalTimestamp_iff` -- the helper admits the texts of the instants of
  the years 0000 to 9999 and nothing else;
* `parseRequestLine_print` -- what it makes of the line of a record.
-/

namespace AtlasManager.PowerHelper.Protocol

open AtlasManager.Lib

/-! ## Timestamps -/

/-- `IsCanonicalTimestamp`: the layout's length, a closing `Z`, and `time.Parse`
followed by `Format` gives the text again, which holds of the texts of instants. -/
def isCanonicalTimestamp (value : String) : Bool :=
  value.length = 24 && value.toList.getLast? = some 'Z' && (Timestamp.ofText? value).isSome

/-- The years the layout can write. -/
def FourDigitYear (t : Timestamp) : Prop := 0 ≤ yearOf t.ms ∧ yearOf t.ms ≤ 9999

instance (t : Timestamp) : Decidable (FourDigitYear t) :=
  inferInstanceAs (Decidable (_ ∧ _))

/-- **Admission**: canonical timestamps are the texts of the instants with a
four-digit year. -/
theorem isCanonicalTimestamp_iff {value : String} :
    isCanonicalTimestamp value = true ↔ ∃ t : Timestamp, t.text = value ∧ FourDigitYear t := by
  unfold isCanonicalTimestamp
  constructor
  · intro h
    simp only [Bool.and_eq_true, decide_eq_true_eq, Option.isSome_iff_exists] at h
    obtain ⟨⟨hlength, _⟩, t, ht⟩ := h
    have htext := Timestamp.text_ofText? ht
    rw [← htext] at hlength
    exact ⟨t, htext, t.length_text.mp hlength⟩
  · rintro ⟨t, rfl, hyear⟩
    simp [t.length_text.mpr hyear, t.getLast?_text]

theorem isCanonicalTimestamp_text {t : Timestamp} :
    isCanonicalTimestamp t.text = true ↔ FourDigitYear t := by
  rw [isCanonicalTimestamp_iff]
  constructor
  · rintro ⟨u, hu, hyear⟩
    rwa [← Timestamp.text_inj hu]
  · exact fun hyear => ⟨t, rfl, hyear⟩

/-! ## Wake alarms -/

/-- `WakeAlarmUnsupported`, `WakeAlarmNotScheduled`, `WakeAlarmScheduled`. -/
inductive WakeAlarmState
  | unsupported
  | notScheduled
  | scheduled
  deriving DecidableEq, Repr

def WakeAlarmState.text : WakeAlarmState → String
  | unsupported => "unsupported"
  | notScheduled => "not_scheduled"
  | scheduled => "scheduled"

/-! ## Requests -/

def Version : Int := 1

def MaxRequestBytes : Nat := 4096

def MaxResponseBytes : Nat := 16384

abbrev Operation := String

def ReadRTCInformation : Operation := "read_rtc_information"

def ReadWakeAlarm : Operation := "read_wake_alarm"

def ScheduleWakeAlarm : Operation := "schedule_wake_alarm"

def CancelWakeAlarm : Operation := "cancel_wake_alarm"

def RequestShutdown : Operation := "request_shutdown"

def operations : List Operation :=
  [ReadRTCInformation, ReadWakeAlarm, ScheduleWakeAlarm, CancelWakeAlarm, RequestShutdown]

structure Request where
  version : Int
  operation : Operation
  requestedAt : String
  scheduledFor : String
  deriving DecidableEq, Repr

/-- `unicode.IsSpace`. -/
def isSpace (c : Char) : Bool :=
  (9 ≤ c.toNat && c.toNat ≤ 13) || c.toNat = 0x20 || c.toNat = 0x85 || c.toNat = 0xA0 ||
    c.toNat = 0x1680 || (0x2000 ≤ c.toNat && c.toNat ≤ 0x200A) || c.toNat = 0x2028 ||
    c.toNat = 0x2029 || c.toNat = 0x202F || c.toNat = 0x205F || c.toNat = 0x3000

/-- The text in front of the one newline, which has to end the input. -/
def lineOf (text : List Char) : Option (List Char) :=
  let line := text.dropLast
  if text.getLast? ≠ some '\n' ∨ '\r' ∈ text ∨ text.count '\n' ≠ 1 then none
  -- `TrimSpace` leaves a text alone when no space stands at its ends
  else if line = [] ∨ line.head?.any isSpace ∨ line.getLast?.any isSpace then none
  else some line

/-- The fields of a record; no name may occur twice. -/
def decodeStrictObject (input : List Char) : Option (List (String × Json)) :=
  match Json.parse input with
  | some (.obj fields) => if (fields.map Prod.fst).Nodup then some fields else none
  | _ => none

/-- `strconv.Itoa`. -/
def itoa (n : Int) : List Char :=
  if n < 0 then '-' :: Nat.toDigits 10 n.natAbs else Nat.toDigits 10 n.natAbs

/-- A literal that is the numeral of an integer. -/
def exactInteger : Option Json → Option Int
  | some (.num literal) =>
    let negative := literal.head? = some '-'
    let parsed := (readDigits 0 (if negative then literal.tail else literal)).map
      fun (n : Nat) => if negative then -(n : Int) else (n : Int)
    parsed.filter fun n => -2 ^ 63 ≤ n && n < 2 ^ 63 && itoa n = literal
  | _ => none

/-- A text; `json.Unmarshal` leaves the empty text in place for `null`. -/
def exactString : Option Json → Option String
  | some (.str value) => some value
  | some .null => some ""
  | _ => none

def hasExactKeys (fields : List (String × Json)) (expected : List String) : Bool :=
  fields.length = expected.length && fields.all fun f => f.1 ∈ expected

/-- The request that the fields of a record make. -/
def requestOf (fields : List (String × Json)) : Option Request := do
  let version ← exactInteger (fields.lookup "version")
  if version ≠ Version then none
  let operation ← exactString (fields.lookup "operation")
  if operation ∉ operations then none
  let requestedAt ← exactString (fields.lookup "requestedAt")
  if !isCanonicalTimestamp requestedAt then none
  if operation = ScheduleWakeAlarm then
    if !hasExactKeys fields ["version", "operation", "requestedAt", "scheduledFor"] then none
    let scheduledFor ← exactString (fields.lookup "scheduledFor")
    if !isCanonicalTimestamp scheduledFor ∨ scheduledFor ≤ requestedAt then none
    return ⟨Version, operation, requestedAt, scheduledFor⟩
  if !hasExactKeys fields ["version", "operation", "requestedAt"] then none
  return ⟨Version, operation, requestedAt, ""⟩

/-- `ParseRequestLine`.  All its errors are the same one. -/
def parseRequestLine (input : ByteArray) : Option Request := do
  if input.size = 0 ∨ input.size > MaxRequestBytes then none
  let text ← String.fromUTF8? input
  let line ← lineOf text.toList
  requestOf (← decodeStrictObject line)

section Print

variable {escape : Char → List Char} {fields : List (String × Json)}

/-- The text of a record is one line without blanks at its ends. -/
theorem lineOf_print (h : Json.Escapes escape) (hnat : (Json.obj fields).Naturals) :
    lineOf ((Json.obj fields).print escape ++ ['\n']) = some ((Json.obj fields).print escape) := by
  have hvisible := Json.print_visible h (.obj fields) hnat
  have hnone (c : Char) (hc : c.toNat < 0x20) : c ∉ (Json.obj fields).print escape :=
    fun hmem => absurd (hvisible c hmem) (by omega)
  have hreturn : '\r' ∉ (Json.obj fields).print escape ++ ['\n'] := by
    simp [hnone '\r' (by decide)]
  have hcount : ((Json.obj fields).print escape ++ ['\n']).count '\n' = 1 := by
    rw [List.count_append, List.count_eq_zero.mpr (hnone '\n' (by decide))]
    rfl
  unfold lineOf
  rw [if_neg (by simp [hreturn, hcount]), List.dropLast_concat]
  rw [if_neg]
  have hlast : ((Json.obj fields).print escape).getLast? = some '}' := by
    rw [Json.print, ← List.cons_append, List.getLast?_concat]
  rw [hlast]
  simp only [Json.print, List.head?_cons, Option.any_some]
  simp [show isSpace '{' = false by decide, show isSpace '}' = false by decide]

/-- The helper reads the line of a record as the record. -/
theorem parseRequestLine_print (h : Json.Escapes escape) (hnat : (Json.obj fields).Naturals)
    (hnodup : (fields.map Prod.fst).Nodup)
    (hbound : 4 * ((Json.obj fields).bound + 1) ≤ MaxRequestBytes) :
    parseRequestLine
      (String.ofList ((Json.obj fields).print escape ++ ['\n'])).toByteArray = requestOf fields := by
  have hsize := Json.size_toByteArray ((Json.obj fields).print escape ++ ['\n'])
  have hlength := Json.length_print_le h (.obj fields)
  rw [List.length_append, List.length_singleton] at hsize
  have hparse : Json.parse ((Json.obj fields).print escape) = some (.obj fields) := by
    have hparse : Json.parse ((Json.obj fields).print escape ++ []) = some (.obj fields) :=
      Json.parse_print h hnat (by simp)
    rwa [List.append_nil] at hparse
  have hstrict : decodeStrictObject ((Json.obj fields).print escape) = some fields := by
    rw [decodeStrictObject, hparse]
    exact if_pos hnodup
  unfold parseRequestLine
  rw [if_neg (by omega)]
  simp only [Json.fromUTF8?_toByteArray, String.toList_ofList, lineOf_print h hnat, hstrict,
    Option.bind_eq_bind, Option.bind_some]

end Print

/-! ## Responses -/

structure WakeAlarmResult where
  state : String
  scheduledFor : String
  deriving DecidableEq, Repr

structure RTCInformationResult where
  rtcTime : String
  wakeAlarm : WakeAlarmResult
  deriving DecidableEq, Repr

structure WakeAlarmMutationResult where
  before : WakeAlarmResult
  after : WakeAlarmResult
  outcome : String
  deriving DecidableEq, Repr

structure ShutdownResult where
  accepted : Bool
  deriving DecidableEq, Repr

structure ResponseResult where
  rtcInformation : Option RTCInformationResult := none
  wakeAlarm : Option WakeAlarmResult := none
  mutation : Option WakeAlarmMutationResult := none
  shutdown : Option ShutdownResult := none
  deriving DecidableEq, Repr

structure Response where
  version : Int
  operation : Operation
  outcome : String
  code : String
  result : Option ResponseResult
  deriving DecidableEq, Repr

def validateWakeAlarmResult (result : WakeAlarmResult) : Bool :=
  if result.state = WakeAlarmState.unsupported.text ∨
      result.state = WakeAlarmState.notScheduled.text then
    result.scheduledFor = ""
  else if result.state = WakeAlarmState.scheduled.text then
    isCanonicalTimestamp result.scheduledFor
  else false

/-- What an outcome says of the states before and after. -/
def validTransition (operation : Operation) (result : WakeAlarmMutationResult) : Bool :=
  if operation = ScheduleWakeAlarm then
    if result.outcome = "scheduled" then
      result.before.state = WakeAlarmState.notScheduled.text &&
        result.after.state = WakeAlarmState.scheduled.text
    else if result.outcome = "replaced" then
      result.before.state = WakeAlarmState.scheduled.text &&
        result.after.state = WakeAlarmState.scheduled.text &&
        result.before.scheduledFor ≠ result.after.scheduledFor
    else if result.outcome = "unchanged" then
      result.before.state = WakeAlarmState.scheduled.text &&
        result.after.state = WakeAlarmState.scheduled.text &&
        result.before.scheduledFor = result.after.scheduledFor
    else false
  else if operation = CancelWakeAlarm then
    if result.outcome = "cancelled" then
      result.before.state = WakeAlarmState.scheduled.text &&
        result.after.state = WakeAlarmState.notScheduled.text
    else if result.outcome = "not_scheduled" then
      result.before.state = WakeAlarmState.notScheduled.text &&
        result.after.state = WakeAlarmState.notScheduled.text
    else false
  else false

def validateMutationResult (operation : Operation) (result : WakeAlarmMutationResult) : Bool :=
  result.before.state ≠ WakeAlarmState.unsupported.text &&
    result.after.state ≠ WakeAlarmState.unsupported.text &&
    validateWakeAlarmResult result.before && validateWakeAlarmResult result.after &&
    validTransition operation result

def isFailureCode (code : String) : Bool :=
  code ∈ ["operation_unsupported", "operation_rejected", "operation_failed", "state_unavailable"]

/-- Does a result have the one part its operation asks for? -/
def validateResult (operation : Operation) (result : ResponseResult) : Bool :=
  if operation = ReadRTCInformation then
    match result with
    | ⟨some information, none, none, none⟩ =>
      isCanonicalTimestamp information.rtcTime && validateWakeAlarmResult information.wakeAlarm
    | _ => false
  else if operation = ReadWakeAlarm then
    match result with
    | ⟨none, some wakeAlarm, none, none⟩ => validateWakeAlarmResult wakeAlarm
    | _ => false
  else if operation = ScheduleWakeAlarm ∨ operation = CancelWakeAlarm then
    match result with
    | ⟨none, none, some mutation, none⟩ => validateMutationResult operation mutation
    | _ => false
  else if operation = RequestShutdown then
    match result with
    | ⟨none, none, none, some shutdown⟩ => shutdown.accepted
    | _ => false
  else false

def validateResponse (response : Response) : Bool :=
  if response.version ≠ Version ∨ response.operation ∉ operations then false
  else if response.outcome = "success" then
    response.code = "" && response.result.any (validateResult response.operation)
  else if response.outcome ≠ "rejected" ∧ response.outcome ≠ "failed" then false
  else response.result.isNone && isFailureCode response.code

/-! ## Texts of responses -/

def WakeAlarmResult.json (result : WakeAlarmResult) : Json :=
  .obj (("state", .str result.state) ::
    if result.scheduledFor = "" then [] else [("scheduledFor", .str result.scheduledFor)])

/-- What the response of an operation shows of its result. -/
def ResponseResult.json (operation : Operation) (result : ResponseResult) : Option Json :=
  if operation = ReadRTCInformation then
    result.rtcInformation.map fun information =>
      .obj [("rtcTime", .str information.rtcTime), ("wakeAlarm", information.wakeAlarm.json)]
  else if operation = ScheduleWakeAlarm ∨ operation = CancelWakeAlarm then
    result.mutation.map fun mutation =>
      .obj [("before", mutation.before.json), ("after", mutation.after.json),
        ("outcome", .str mutation.outcome)]
  else if operation = RequestShutdown then
    result.shutdown.map fun shutdown => .obj [("accepted", .bool shutdown.accepted)]
  else some (result.wakeAlarm.getD ⟨"", ""⟩).json

def versionJson (version : Int) : Json := .num (itoa version)

/-- `Response.MarshalJSON`; the parts that are read are there in a valid response. -/
def Response.json (response : Response) : Option Json :=
  if !validateResponse response then none
  else if response.outcome = "success" then
    (response.result.bind (ResponseResult.json response.operation)).map fun result =>
      .obj [("version", versionJson response.version), ("operation", .str response.operation),
        ("outcome", .str response.outcome), ("result", result)]
  else
    some (.obj [("version", versionJson response.version), ("operation", .str response.operation),
      ("outcome", .str response.outcome), ("code", .str response.code)])

/-- What `json.Marshal` writes for a character. -/
def marshalChar : Char → List Char :=
  Json.escapeChar fun c =>
    c.toNat < 0x20 || c = '<' || c = '>' || c = '&' || c.toNat = 0x2028 || c.toNat = 0x2029

theorem escapes_marshalChar : Json.Escapes marshalChar :=
  Json.escapes_escapeChar (by simp +contextual) fun c hc => by
    simp only [Bool.or_eq_true, decide_eq_true_eq] at hc
    rcases hc with ((((hc | rfl) | rfl) | rfl) | hc) | hc
    · omega
    · decide
    · decide
    · decide
    · omega
    · omega

def MarshalResponse (response : Response) : Option ByteArray := do
  let json ← response.json
  let encoded := String.ofList (json.print marshalChar ++ ['\n'])
  if encoded.toByteArray.size > MaxResponseBytes then none
  return encoded.toByteArray

end AtlasManager.PowerHelper.Protocol
