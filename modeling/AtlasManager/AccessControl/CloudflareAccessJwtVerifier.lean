import AtlasManager.Lib.Base64
import AtlasManager.AccessControl.ProtectedAdministration

/-!
# AtlasManager.AccessControl.CloudflareAccessJwtVerifier

The check of a signed assertion: its encoding, its header and claims, the key
its header names, the signature, and only then whom it stands for.

The signature check is a library's; it is a parameter here, as are the reading
of JSON and the provider of keys.

* `decodeBase64Url_eq_some` -- segments are exactly the canonical encodings;
* `tokenOf_of_decode` -- what an assertion that was taken apart looks like;
* `verify_safe` -- every call answers, an authenticated answer is earned, and
  without a valid signature the declared service tokens play no part.
-/

namespace AtlasManager.AccessControl.JwtVerifier

open AtlasManager.Lib AtlasManager.Backup

def MAX_HEADER_BYTES : Nat := 4096
def MAX_PAYLOAD_BYTES : Nat := 8192
def MAX_SIGNATURE_BYTES : Nat := 1024
def CLOCK_TOLERANCE_SECONDS : Int := 30

/-! ## Errors and answers -/

inductive CloudflareAccessJwtVerificationKind where
  | signatureInvalid | issuerMismatch | audienceMismatch | claimsInvalid | keyUnavailable | unknown
  deriving DecidableEq

/-- What is thrown. -/
inductive Thrown where
  /-- A `CloudflareAccessJwtVerificationError`. -/
  | verification (kind : CloudflareAccessJwtVerificationKind)
  /-- An `Error` of another class. -/
  | error (name message : String)
  /-- Something that is not an `Error`. -/
  | value
  deriving DecidableEq

def Thrown.name : Thrown → Option String
  | .verification _ => some "CloudflareAccessJwtVerificationError"
  | .error name _ => some name
  | .value => none

def Thrown.message : Thrown → Option String
  | .verification _ => some "Cloudflare Access assertion verification failed"
  | .error _ message => some message
  | .value => none

/-- `message.toLowerCase().includes(word)`. -/
def mentions (message word : String) : Bool :=
  message.toLower.toList.tails.any word.toList.isPrefixOf

def isUnavailable (error : Thrown) : Bool :=
  error.name = some "CloudflareAccessJwksUnavailableError" ||
    error.name = some "CloudflareAccessJwksInvalidError"

def mapJwtVerifyErrorToReason (error : Thrown) : String :=
  match error.message with
  | none => "claims_invalid"
  | some message =>
    if mentions message "signature" then "signature_invalid"
    else if mentions message "issuer" || mentions message "\"iss\"" then "issuer_mismatch"
    else "claims_invalid"

def extractVerificationReason : Thrown → String
  | .verification .audienceMismatch => "audience_mismatch"
  | .verification .signatureInvalid => "signature_invalid"
  | .verification .keyUnavailable => "key_unavailable"
  | .verification .issuerMismatch => "issuer_mismatch"
  | .verification _ => "claims_invalid"
  | .value => "claims_invalid"
  | .error _ message =>
    if mentions message "issuer" || mentions message "\"iss\"" then "issuer_mismatch"
    else if mentions message "audience" || mentions message "\"aud\"" then "audience_mismatch"
    else if mentions message "signature" then "signature_invalid"
    else "claims_invalid"

def createAdministrativePrincipal (principalId : String) (kind : AdministrativePrincipalKind) :
    Except Thrown AdministrativePrincipal :=
  if h : isRunId principalId = true then .ok ⟨principalId, kind, h⟩
  else .error (.error "AdministrativePrincipalValidationError"
    "Invalid administrative principal: invalid_principal")

/-- The reasons an answer may name. -/
def validReasons : List (String × AuthenticationFailureReason) :=
  [("credentials_absent", .credentialsAbsent), ("credentials_invalid", .credentialsInvalid),
    ("signature_invalid", .signatureInvalid), ("issuer_mismatch", .issuerMismatch),
    ("audience_mismatch", .audienceMismatch), ("claims_invalid", .claimsInvalid),
    ("key_unavailable", .keyUnavailable)]

/-- `createAdministrativeAuthenticationResult` for an unauthenticated answer. -/
def unauthenticated (reason : String) : Except Thrown AdministrativeAuthenticationResult :=
  match validReasons.lookup reason with
  | some reason => .ok (.unauthenticated reason)
  | none => .error (.error "Error" "Invalid authentication result")

/-! ## The encoding of an assertion -/

/-- The characters of `BASE64URL_PATTERN`. -/
def isBase64Url (c : Char) : Bool :=
  ('A' ≤ c && c ≤ 'Z') || ('a' ≤ c && c ≤ 'z') || ('0' ≤ c && c ≤ '9') || c = '_' || c = '-'

def decodeBase64Url (input : List Char) : Option (List UInt8) :=
  if input = [] || input.contains '=' || !input.all isBase64Url || input.length % 4 = 1 then none
  else
    match Base64.decode input with
    | none => none
    | some bytes => if Base64.encode bytes ≠ input then none else some bytes

/-- The segments of an assertion: header, payload, signature. -/
def splitAssertion (assertion : String) : Option (List Char × List Char × List Char) :=
  match assertion.toList.splitOn '.' with
  | [header, payload, signature] =>
    if [header, payload, signature].any fun part => part = [] || !part.all isBase64Url then none
    else
      match decodeBase64Url signature with
      | none => none
      | some bytes =>
        if bytes.length > MAX_SIGNATURE_BYTES then none else some (header, payload, signature)
  | _ => none

abbrev Fields := List (String × JsValue)

/-- `parseJson` decodes UTF-8 and parses; it gives `none` where either throws. -/
def decodeJsonSegment (parseJson : List UInt8 → Option JsValue) (input : List Char)
    (maximumBytes : Nat) : Option Fields :=
  match decodeBase64Url input with
  | none => none
  | some bytes =>
    if bytes.length > maximumBytes then none else (parseJson bytes).bind JsValue.asRecord

/-! ## Header and claims -/

/-- The `kid` of a header that is as it has to be. -/
def validateProtectedHeader (header : Fields) : Option String :=
  match field header "kid" with
  | .str kid =>
    let crit := field header "crit"
    if field header "alg" ≠ .str "RS256" ||
        (field header "typ" ≠ .undefined && field header "typ" ≠ .str "JWT") ||
        kid.length < 1 || kid.length > 128 ||
        !kid.toList.all (fun c => 0x21 ≤ c.toNat && c.toNat ≤ 0x7E) ||
        field header "jku" ≠ .undefined || field header "jwk" ≠ .undefined ||
        field header "x5u" ≠ .undefined || field header "x5c" ≠ .undefined ||
        (crit ≠ .undefined && crit ≠ .arr []) then none
    else some kid
  | _ => none

structure ValidClaims where
  iss : String
  /-- One audience stands for an array of one. -/
  aud : List String
  sub : String
  exp : Int
  iat : Int
  nbf : Option Int
  commonName : Option String

/-- The audiences of a value that `isAudience` accepts. -/
def audiences? : JsValue → Option (List String)
  | .str audience => if audience = "" then none else some [audience]
  | .arr items =>
    match textItems items with
    | none => none
    | some texts => if texts = [] || "" ∈ texts then none else some texts
  | _ => none

/-- `Number.isSafeInteger`, with the integer. -/
def safeInteger? (value : JsValue) : Option Int :=
  value.integer?.filter fun n => n.natAbs ≤ 2 ^ 53 - 1

/-- A field that may be missing, `none` when it is there and wrong. -/
def optionalField {α : Type} (read : JsValue → Option α) : JsValue → Option (Option α)
  | .undefined => some none
  | value => (read value).map some

def commonName? : JsValue → Option String
  | .str name =>
    if (codeUnits name).length = 0 || (codeUnits name).length > 128 then none else some name
  | _ => none

def text? : JsValue → Option String
  | .str text => some text
  | _ => none

/-- A check that throws a verification error of a kind. -/
def orThrow {α : Type} (kind : CloudflareAccessJwtVerificationKind) :
    Option α → Except Thrown α
  | some a => .ok a
  | none => .error (.verification kind)

def validateClaims (input : Fields) (expectedAudience : String) : Except Thrown ValidClaims := do
  let iss ← orThrow .claimsInvalid (text? (field input "iss"))
  let aud ← orThrow .claimsInvalid (audiences? (field input "aud"))
  let _ ← orThrow .audienceMismatch (if expectedAudience ∈ aud then some () else none)
  let sub ← orThrow .claimsInvalid (text? (field input "sub"))
  let _ ← orThrow .claimsInvalid (if field input "type" = .str "app" then some () else none)
  let exp ← orThrow .claimsInvalid (safeInteger? (field input "exp"))
  let iat ← orThrow .claimsInvalid (safeInteger? (field input "iat"))
  let nbf ← orThrow .claimsInvalid (optionalField safeInteger? (field input "nbf"))
  let commonName ← orThrow .claimsInvalid (optionalField commonName? (field input "common_name"))
  return { iss, aud, sub, exp, iat, nbf, commonName }

/-- The times of an assertion fit one another and the time of the check. -/
def temporalClaimsHold (exp iat : Int) (nbf : Option Int) (time : Timestamp) : Bool :=
  iat ≤ exp && nbf.all (· ≤ exp) && time.ms ≤ (exp + CLOCK_TOLERANCE_SECONDS) * 1000 &&
    iat * 1000 ≤ time.ms + CLOCK_TOLERANCE_SECONDS * 1000 &&
    nbf.all fun n => n * 1000 ≤ time.ms + CLOCK_TOLERANCE_SECONDS * 1000

def validateTemporalClaims (claims : ValidClaims) (time : Timestamp) : Except Thrown Unit :=
  orThrow .unknown
    (if temporalClaimsHold claims.exp claims.iat claims.nbf time then some () else none)

/-! ## Whom an assertion stands for -/

/-- The declared service tokens, each with the principal it acts as. -/
structure ServiceTokenPrincipals where
  mapping : List (String × String)
  distinct : (mapping.map (·.1)).Nodup
  canonical : ∀ entry ∈ mapping, isRunId entry.2 = true

def ServiceTokenPrincipals.resolve (tokens : ServiceTokenPrincipals) (clientId : String) :
    Option String := tokens.mapping.lookup clientId

def emptyServiceTokenPrincipals : ServiceTokenPrincipals := ⟨[], List.nodup_nil, by simp⟩

def resolveIdentity (claims : ValidClaims) (tokens : ServiceTokenPrincipals) :
    Option (String × AdministrativePrincipalKind) :=
  if isRunId claims.sub then some (claims.sub, .human)
  else if claims.sub ≠ "" then none
  else
    match claims.commonName with
    | none => none
    | some commonName => (tokens.resolve commonName).map fun principalId => (principalId, .service)

/-! ## Verification -/

structure CloudflareAccessConfiguration where
  issuer : String
  audience : String

structure JwtVerifyOptions where
  algorithms : List String
  audience : String
  currentDate : Timestamp
  issuer : String
  requiredClaims : List String
  clockTolerance : Int

/-- What the verifier is given. -/
structure Dependencies (Key : Type) where
  parseJson : List UInt8 → Option JsValue
  resolveKey : String → Timestamp → Except Thrown Key
  jwtVerify : String → Key → JwtVerifyOptions → Except Thrown Unit

section Verify

variable {Key : Type} (deps : Dependencies Key) (configuration : CloudflareAccessConfiguration)

def verifyOptions (time : Timestamp) : JwtVerifyOptions where
  algorithms := ["RS256"]
  audience := configuration.audience
  currentDate := time
  issuer := configuration.issuer
  requiredClaims := ["iss", "aud", "sub", "exp", "iat", "type"]
  clockTolerance := CLOCK_TOLERANCE_SECONDS

/-- What an assertion says, before any key is asked for: its `kid` and its claims. -/
def readAssertion (assertion : String) (verificationTime : Date) :
    Except Thrown (String × ValidClaims × Timestamp) := do
  let (headerSegment, payloadSegment, _) ← orThrow .unknown (splitAssertion assertion)
  let header ← orThrow .unknown (decodeJsonSegment deps.parseJson headerSegment MAX_HEADER_BYTES)
  let kid ← orThrow .unknown (validateProtectedHeader header)
  let payload ← orThrow .unknown
    (decodeJsonSegment deps.parseJson payloadSegment MAX_PAYLOAD_BYTES)
  let claims ← validateClaims payload configuration.audience
  let time ← orThrow .claimsInvalid verificationTime
  validateTemporalClaims claims time
  return (kid, claims, time)

/-- The answer when the provider has no key. -/
def answerKeyError (keyError : Thrown) : Except Thrown AdministrativeAuthenticationResult :=
  if isUnavailable keyError then .ok .unavailable
  else if keyError.name = some "CloudflareAccessJwksKeyNotFoundError" then
    unauthenticated "key_unavailable"
  else .ok .unavailable

def answerVerifyError (verifyError : Thrown) : Except Thrown AdministrativeAuthenticationResult :=
  if isUnavailable verifyError then .ok .unavailable
  else unauthenticated (mapJwtVerifyErrorToReason verifyError)

/-- The answer once the signature is verified. -/
def answerIdentity (tokens : ServiceTokenPrincipals) (claims : ValidClaims) :
    Except Thrown AdministrativeAuthenticationResult :=
  match resolveIdentity claims tokens with
  | none => unauthenticated "claims_invalid"
  | some (principalId, kind) => do
    let principal ← createAdministrativePrincipal principalId kind
    return .authenticated principal

/-- The body of the outer `try`. -/
def verifyBody (tokens : ServiceTokenPrincipals) (assertion : String) (verificationTime : Date) :
    Except Thrown AdministrativeAuthenticationResult := do
  let (kid, claims, time) ← readAssertion deps configuration assertion verificationTime
  match deps.resolveKey kid time with
  | .error keyError => answerKeyError keyError
  | .ok key =>
    match deps.jwtVerify assertion key (verifyOptions configuration time) with
    | .error verifyError => answerVerifyError verifyError
    -- resolved only after the signature is verified
    | .ok () => answerIdentity tokens claims

def verify (tokens : ServiceTokenPrincipals) (assertion : String) (verificationTime : Date) :
    Except Thrown AdministrativeAuthenticationResult :=
  match verifyBody deps configuration tokens assertion verificationTime with
  | .ok result => .ok result
  | .error error =>
    if isUnavailable error then .ok .unavailable
    else unauthenticated (extractVerificationReason error)

end Verify

/-! ## Canonical encodings -/

private theorem isBase64Url_sextetChar : ∀ n < 64,
    isBase64Url (Base64.sextetChar n) = true ∧ Base64.sextetChar n ≠ '=' := by decide

/-- **Segments**: what decodes is the encoding of the bytes, and every encoding of some
bytes decodes. -/
theorem decodeBase64Url_eq_some {input : List Char} {bytes : List UInt8} :
    decodeBase64Url input = some bytes ↔ bytes ≠ [] ∧ input = Base64.encode bytes := by
  unfold decodeBase64Url
  constructor
  · intro h
    by_cases hshape : input = [] || input.contains '=' || !input.all isBase64Url ||
        input.length % 4 = 1
    · rw [if_pos hshape] at h
      cases h
    · rw [if_neg hshape] at h
      cases hdecode : Base64.decode input with
      | none => simp [hdecode] at h
      | some decoded =>
          simp only [hdecode] at h
          split_ifs at h with hcanonical
          cases h
          have hinput := not_not.mp hcanonical
          refine ⟨fun hnil => hshape ?_, hinput.symm⟩
          rw [← hinput, Base64.encode_eq_nil.mpr hnil]
          simp
  · rintro ⟨hne, rfl⟩
    have hchars : ∀ c ∈ Base64.encode bytes, isBase64Url c = true ∧ c ≠ '=' := by
      intro c hc
      obtain ⟨n, hn, rfl⟩ := Base64.encode_alphabet hc
      exact isBase64Url_sextetChar n hn
    have hall : (Base64.encode bytes).all isBase64Url = true :=
      List.all_eq_true.mpr fun c hc => (hchars c hc).1
    have hpad : (Base64.encode bytes).contains '=' = false := by
      rw [← Bool.not_eq_true, List.contains_iff_mem]
      exact fun hc => (hchars '=' hc).2 rfl
    have hnil : ¬ Base64.encode bytes = [] := fun h => hne (Base64.encode_eq_nil.mp h)
    rw [if_neg (by rw [hall, hpad]; simp [hnil, Base64.length_encode_mod])]
    simp

/-- The assertion `header.payload.signature`, each segment the encoding of some bytes, the
first two of JSON records. -/
def TokenOf (parseJson : List UInt8 → Option JsValue) (assertion : String)
    (header payload : Fields) : Prop :=
  ∃ headerBytes payloadBytes signatureBytes : List UInt8,
    headerBytes ≠ [] ∧ payloadBytes ≠ [] ∧ signatureBytes ≠ [] ∧
    assertion = String.ofList (Base64.encode headerBytes ++ '.' ::
      (Base64.encode payloadBytes ++ '.' :: Base64.encode signatureBytes)) ∧
    parseJson headerBytes = some (.obj header) ∧ parseJson payloadBytes = some (.obj payload)

theorem splitAssertion_eq_some {assertion : String} {header payload signature : List Char}
    (h : splitAssertion assertion = some (header, payload, signature)) :
    assertion = String.ofList (header ++ '.' :: (payload ++ '.' :: signature)) ∧
      ∃ bytes, decodeBase64Url signature = some bytes := by
  unfold splitAssertion at h
  split at h
  · rename_i first second third hsplit
    split_ifs at h
    split at h
    · cases h
    · rename_i bytes hbytes
      split_ifs at h
      cases h
      refine ⟨?_, bytes, hbytes⟩
      have hjoin : ['.'].intercalate (assertion.toList.splitOn '.') = assertion.toList :=
        List.intercalate_splitOn _
      rw [hsplit] at hjoin
      rw [← String.ofList_toList (s := assertion), ← hjoin]
      simp [List.intercalate]
  · cases h

theorem decodeJsonSegment_eq_some {parseJson : List UInt8 → Option JsValue} {input : List Char}
    {maximumBytes : Nat} {fields : Fields}
    (h : decodeJsonSegment parseJson input maximumBytes = some fields) :
    ∃ bytes, decodeBase64Url input = some bytes ∧ parseJson bytes = some (.obj fields) := by
  unfold decodeJsonSegment at h
  split at h
  · cases h
  · rename_i bytes hbytes
    split_ifs at h
    obtain ⟨value, hparse, hrecord⟩ := Option.bind_eq_some_iff.mp h
    cases value <;> cases hrecord
    exact ⟨bytes, hbytes, hparse⟩

/-- What an assertion that was taken apart looks like. -/
theorem tokenOf_of_decode {parseJson : List UInt8 → Option JsValue} {assertion : String}
    {headerSegment payloadSegment signature : List Char} {header payload : Fields} {m n : Nat}
    (hsplit : splitAssertion assertion = some (headerSegment, payloadSegment, signature))
    (hheader : decodeJsonSegment parseJson headerSegment m = some header)
    (hpayload : decodeJsonSegment parseJson payloadSegment n = some payload) :
    TokenOf parseJson assertion header payload := by
  obtain ⟨hassertion, signatureBytes, hsignature⟩ := splitAssertion_eq_some hsplit
  obtain ⟨headerBytes, hheaderBytes, hparseHeader⟩ := decodeJsonSegment_eq_some hheader
  obtain ⟨payloadBytes, hpayloadBytes, hparsePayload⟩ := decodeJsonSegment_eq_some hpayload
  obtain ⟨hs, rfl⟩ := decodeBase64Url_eq_some.mp hsignature
  obtain ⟨hh, rfl⟩ := decodeBase64Url_eq_some.mp hheaderBytes
  obtain ⟨hp, rfl⟩ := decodeBase64Url_eq_some.mp hpayloadBytes
  exact ⟨headerBytes, payloadBytes, signatureBytes, hh, hp, hs, hassertion, hparseHeader,
    hparsePayload⟩

private theorem dot_notMem_encode (bytes : List UInt8) : '.' ∉ Base64.encode bytes := by
  intro h
  obtain ⟨n, hn, hdot⟩ := Base64.encode_alphabet h
  have hchar := (isBase64Url_sextetChar n hn).1
  rw [← hdot] at hchar
  exact absurd hchar (by decide)

private theorem encode_inj {a b : List UInt8} (h : Base64.encode a = Base64.encode b) : a = b := by
  have hdecode := Base64.decode_encode a
  rw [h, Base64.decode_encode] at hdecode
  exact (Option.some.inj hdecode).symm

/-- The segments between the dots are the encodings. -/
theorem splitOn_encode (a b c : List UInt8) :
    (Base64.encode a ++ '.' :: (Base64.encode b ++ '.' :: Base64.encode c)).splitOn '.' =
      [Base64.encode a, Base64.encode b, Base64.encode c] := by
  have hjoin : ['.'].intercalate [Base64.encode a, Base64.encode b, Base64.encode c] =
      Base64.encode a ++ '.' :: (Base64.encode b ++ '.' :: Base64.encode c) := by
    simp [List.intercalate]
  rw [← hjoin]
  refine List.splitOn_intercalate _ ?_ (by simp)
  intro segment hsegment
  simp only [List.mem_cons, List.not_mem_nil, or_false] at hsegment
  rcases hsegment with rfl | rfl | rfl <;> exact dot_notMem_encode _

theorem splitAssertion_encode {header payload signature : List UInt8} (hheader : header ≠ [])
    (hpayload : payload ≠ []) (hsignature : signature ≠ [])
    (hlength : signature.length ≤ MAX_SIGNATURE_BYTES) :
    splitAssertion (String.ofList (Base64.encode header ++ '.' ::
      (Base64.encode payload ++ '.' :: Base64.encode signature))) =
      some (Base64.encode header, Base64.encode payload, Base64.encode signature) := by
  have hsegment : ∀ bytes : List UInt8, bytes ≠ [] →
      (decide (Base64.encode bytes = []) || !(Base64.encode bytes).all isBase64Url) = false := by
    intro bytes hne
    have hall : (Base64.encode bytes).all isBase64Url = true := by
      rw [List.all_eq_true]
      intro c hc
      obtain ⟨n, hn, rfl⟩ := Base64.encode_alphabet hc
      exact (isBase64Url_sextetChar n hn).1
    simp [hall, Base64.encode_eq_nil, hne]
  rw [splitAssertion, String.toList_ofList, splitOn_encode]
  dsimp only
  rw [if_neg (by simp only [List.any_cons, List.any_nil, hsegment _ hheader, hsegment _ hpayload,
    hsegment _ hsignature]; decide), decodeBase64Url_eq_some.mpr ⟨hsignature, rfl⟩]
  dsimp only
  rw [if_neg (Nat.not_lt.mpr hlength)]

theorem decodeJsonSegment_encode {parseJson : List UInt8 → Option JsValue} {bytes : List UInt8}
    {maximumBytes : Nat} {fields : Fields} (hne : bytes ≠ []) (hlength : bytes.length ≤ maximumBytes)
    (hparse : parseJson bytes = some (.obj fields)) :
    decodeJsonSegment parseJson (Base64.encode bytes) maximumBytes = some fields := by
  rw [decodeJsonSegment, decodeBase64Url_eq_some.mpr ⟨hne, rfl⟩]
  dsimp only
  rw [if_neg (Nat.not_lt.mpr hlength), hparse]
  rfl

/-- An assertion is the token of one header and one payload. -/
theorem TokenOf.unique {parseJson : List UInt8 → Option JsValue} {assertion : String}
    {header header' payload payload' : Fields} (h : TokenOf parseJson assertion header payload)
    (h' : TokenOf parseJson assertion header' payload') : header = header' ∧ payload = payload' := by
  obtain ⟨a, b, c, _, _, _, hassertion, hheader, hpayload⟩ := h
  obtain ⟨a', b', c', _, _, _, hassertion', hheader', hpayload'⟩ := h'
  have hsegments := splitOn_encode a b c
  rw [hassertion, String.ofList_inj] at hassertion'
  rw [hassertion', splitOn_encode, List.cons.injEq, List.cons.injEq] at hsegments
  obtain ⟨ha, hb, _⟩ := hsegments
  rw [← encode_inj ha, hheader'] at hheader
  rw [← encode_inj hb, hpayload'] at hpayload
  exact ⟨(JsValue.obj.inj (Option.some.inj hheader)).symm,
    (JsValue.obj.inj (Option.some.inj hpayload)).symm⟩

/-! ## Claims -/

@[simp] theorem orThrow_eq_ok {α : Type} {kind : CloudflareAccessJwtVerificationKind}
    {o : Option α} {a : α} : orThrow kind o = .ok a ↔ o = some a := by
  cases o <;> simp [orThrow]

theorem safeInteger?_eq_some {value : JsValue} {n : Int} (h : safeInteger? value = some n) :
    value = .num n := by
  have hint := (Option.filter_eq_some_iff.mp h).1
  cases value with
  | num q =>
      simp only [JsValue.integer?] at hint
      split_ifs at hint with hden
      rw [← Option.some.inj hint]
      exact congrArg JsValue.num (Rat.coe_int_num_of_den_eq_one hden).symm
  | _ => cases hint

theorem text?_eq_some {value : JsValue} {text : String} (h : text? value = some text) :
    value = .str text := by
  cases value with
  | str s =>
      cases h
      rfl
  | _ => cases h

theorem optionalField_eq_some {α : Type} {read : JsValue → Option α} {value : JsValue}
    {o : Option α} (h : optionalField read value = some o) :
    (value = .undefined ∧ o = none) ∨ ∃ a, o = some a ∧ read value = some a := by
  unfold optionalField at h
  split at h
  · cases h
    exact Or.inl ⟨rfl, rfl⟩
  · obtain ⟨a, ha, rfl⟩ := Option.map_eq_some_iff.mp h
    exact Or.inr ⟨a, rfl, ha⟩

theorem commonName?_eq_some {value : JsValue} {name : String} (h : commonName? value = some name) :
    value = .str name := by
  unfold commonName? at h
  split at h
  · split_ifs at h
    cases h
    rfl
  · cases h

/-- What validated claims are taken from. -/
structure ClaimsOf (payload : Fields) (claims : ValidClaims) : Prop where
  sub : field payload "sub" = .str claims.sub
  exp : field payload "exp" = .num claims.exp
  iat : field payload "iat" = .num claims.iat
  nbf : (field payload "nbf" = .undefined ∧ claims.nbf = none) ∨
    ∃ n : Int, claims.nbf = some n ∧ field payload "nbf" = .num n
  commonName : ∀ name, claims.commonName = some name → field payload "common_name" = .str name

theorem claimsOf_of_validateClaims {payload : Fields} {audience : String} {claims : ValidClaims}
    (h : validateClaims payload audience = .ok claims) : ClaimsOf payload claims := by
  unfold validateClaims at h
  obtain ⟨iss, hiss, h⟩ := exists_of_bind_ok h
  obtain ⟨aud, haud, h⟩ := exists_of_bind_ok h
  obtain ⟨_, _, h⟩ := exists_of_bind_ok h
  obtain ⟨sub, hsub, h⟩ := exists_of_bind_ok h
  obtain ⟨_, _, h⟩ := exists_of_bind_ok h
  obtain ⟨exp, hexp, h⟩ := exists_of_bind_ok h
  obtain ⟨iat, hiat, h⟩ := exists_of_bind_ok h
  obtain ⟨nbf, hnbf, h⟩ := exists_of_bind_ok h
  obtain ⟨commonName, hname, h⟩ := exists_of_bind_ok h
  cases h
  refine ⟨text?_eq_some (orThrow_eq_ok.mp hsub), safeInteger?_eq_some (orThrow_eq_ok.mp hexp),
    safeInteger?_eq_some (orThrow_eq_ok.mp hiat), ?_, ?_⟩
  · rcases optionalField_eq_some (orThrow_eq_ok.mp hnbf) with hnone | ⟨n, hn, hread⟩
    · exact Or.inl hnone
    · exact Or.inr ⟨n, hn, safeInteger?_eq_some hread⟩
  · intro name hsome
    rcases optionalField_eq_some (orThrow_eq_ok.mp hname) with ⟨_, hnone⟩ | ⟨a, ha, hread⟩
    · rw [hnone] at hsome
      cases hsome
    · rw [ha] at hsome
      cases hsome
      exact commonName?_eq_some hread

theorem validateProtectedHeader_kid {header : Fields} {kid : String}
    (h : validateProtectedHeader header = some kid) : field header "kid" = .str kid := by
  unfold validateProtectedHeader at h
  split at h
  · rename_i text hkid
    dsimp only at h
    split_ifs at h
    cases h
    exact hkid
  · cases h

section Verify

variable {Key : Type} {deps : Dependencies Key} {configuration : CloudflareAccessConfiguration}

/-- The times of a token fit an instant: it has been issued, it has begun if it says when, and it has
not ended, each of them give or take the tolerance; and it ends last. -/
structure TimesFit (exp iat : Int) (nbf : Option Int) (time : Timestamp) : Prop where
  issued_first : iat ≤ exp
  begun_first : ∀ n ∈ nbf, n ≤ exp
  notEnded : time.ms ≤ (exp + CLOCK_TOLERANCE_SECONDS) * 1000
  issued : iat * 1000 ≤ time.ms + CLOCK_TOLERANCE_SECONDS * 1000
  begun : ∀ n ∈ nbf, n * 1000 ≤ time.ms + CLOCK_TOLERANCE_SECONDS * 1000

theorem temporalClaimsHold_iff {exp iat : Int} {nbf : Option Int} {time : Timestamp} :
    temporalClaimsHold exp iat nbf time = true ↔ TimesFit exp iat nbf time := by
  simp only [temporalClaimsHold, Bool.and_eq_true, decide_eq_true_eq, Option.all_eq_true, and_assoc]
  constructor
  · intro h
    exact ⟨h.1, h.2.1, h.2.2.1, h.2.2.2.1, h.2.2.2.2⟩
  · intro h
    exact ⟨h.issued_first, h.begun_first, h.notEnded, h.issued, h.begun⟩

/-- An assertion that was read: a token, its `kid`, its claims, and times that fit. -/
theorem readAssertion_eq_ok {assertion : String} {verificationTime : Date} {kid : String}
    {claims : ValidClaims} {time : Timestamp}
    (h : readAssertion deps configuration assertion verificationTime = .ok (kid, claims, time)) :
    ∃ header payload, TokenOf deps.parseJson assertion header payload ∧
      field header "kid" = .str kid ∧ ClaimsOf payload claims ∧ verificationTime = some time ∧
      TimesFit claims.exp claims.iat claims.nbf time := by
  unfold readAssertion at h
  obtain ⟨⟨headerSegment, payloadSegment, signature⟩, hsplit, h⟩ := exists_of_bind_ok h
  obtain ⟨header, hheader, h⟩ := exists_of_bind_ok h
  obtain ⟨kid', hkid, h⟩ := exists_of_bind_ok h
  obtain ⟨payload, hpayload, h⟩ := exists_of_bind_ok h
  obtain ⟨claims', hclaims, h⟩ := exists_of_bind_ok h
  obtain ⟨time', htime, h⟩ := exists_of_bind_ok h
  obtain ⟨_, htemporal, h⟩ := exists_of_bind_ok h
  cases h
  have htoken := tokenOf_of_decode (orThrow_eq_ok.mp hsplit) (orThrow_eq_ok.mp hheader)
    (orThrow_eq_ok.mp hpayload)
  have hhold : temporalClaimsHold claims.exp claims.iat claims.nbf time = true := by
    have hsome := orThrow_eq_ok.mp htemporal
    by_contra hnot
    rw [if_neg hnot] at hsome
    cases hsome
  exact ⟨header, payload, htoken, validateProtectedHeader_kid (orThrow_eq_ok.mp hkid),
    claimsOf_of_validateClaims hclaims, orThrow_eq_ok.mp htime, temporalClaimsHold_iff.mp hhold⟩

/-- A token whose header, claims and times are as they have to be is read. -/
theorem readAssertion_encode {header payload signature : List UInt8}
    {headerFields payloadFields : Fields} {kid : String} {claims : ValidClaims} {time : Timestamp}
    (hheader : header ≠ [] ∧ header.length ≤ MAX_HEADER_BYTES)
    (hpayload : payload ≠ [] ∧ payload.length ≤ MAX_PAYLOAD_BYTES)
    (hsignature : signature ≠ [] ∧ signature.length ≤ MAX_SIGNATURE_BYTES)
    (hparseHeader : deps.parseJson header = some (.obj headerFields))
    (hparsePayload : deps.parseJson payload = some (.obj payloadFields))
    (hkid : validateProtectedHeader headerFields = some kid)
    (hclaims : validateClaims payloadFields configuration.audience = .ok claims)
    (htimes : validateTemporalClaims claims time = .ok ()) :
    readAssertion deps configuration (String.ofList (Base64.encode header ++ '.' ::
      (Base64.encode payload ++ '.' :: Base64.encode signature))) (some time) =
      .ok (kid, claims, time) := by
  have hsplit := splitAssertion_encode hheader.1 hpayload.1 hsignature.1 hsignature.2
  have hreadHeader := decodeJsonSegment_encode hheader.1 hheader.2 hparseHeader
  have hreadPayload := decodeJsonSegment_encode hpayload.1 hpayload.2 hparsePayload
  rw [readAssertion, hsplit]
  simp only [orThrow, bind, Except.bind, hreadHeader, hreadPayload, hkid, hclaims, htimes, pure,
    Except.pure]

/-- Once the assertion is read and accepted, the answer is that of its identity. -/
theorem verify_of_accepted {tokens : ServiceTokenPrincipals} {assertion kid : String}
    {verificationTime : Date} {claims : ValidClaims} {time : Timestamp} {key : Key}
    {result : AdministrativeAuthenticationResult}
    (hread : readAssertion deps configuration assertion verificationTime = .ok (kid, claims, time))
    (hkey : deps.resolveKey kid time = .ok key)
    (haccepted : deps.jwtVerify assertion key (verifyOptions configuration time) = .ok ())
    (hidentity : answerIdentity tokens claims = .ok result) :
    verify deps configuration tokens assertion verificationTime = .ok result := by
  rw [verify, verifyBody, hread]
  simp only [bind, Except.bind, hkey, haccepted, hidentity]

/-! ## What an answer tells -/

/-- The options the library checks the claims of a token against. -/
def MeetsOptions (payload : Fields) (options : JwtVerifyOptions) : Prop :=
  field payload "iss" = .str options.issuer ∧
  (field payload "aud" = .str options.audience ∨
    ∃ items, field payload "aud" = .arr items ∧ .str options.audience ∈ items)

/-- **The library**: what it accepts was signed with the key, and its claims meet the
options. -/
def AcceptsOnlySigned (deps : Dependencies Key) (SignedBy : String → Key → Prop) : Prop :=
  ∀ assertion key options header payload, TokenOf deps.parseJson assertion header payload →
    deps.jwtVerify assertion key options = .ok () →
      SignedBy assertion key ∧ MeetsOptions payload options

/-- An authenticated answer is earned: the assertion is a token in canonical encoding, its
signature is that of the key of its `kid`, issuer and audience are the configured ones, its
times fit, and the principal is the one it names. -/
def Earned (deps : Dependencies Key) (SignedBy : String → Key → Prop)
    (configuration : CloudflareAccessConfiguration) (tokens : ServiceTokenPrincipals)
    (assertion : String) (verificationTime : Date) (principal : AdministrativePrincipal) : Prop :=
  ∃ (header payload : Fields) (kid : String) (time : Timestamp) (key : Key) (sub : String),
    TokenOf deps.parseJson assertion header payload ∧ field header "kid" = .str kid ∧
    verificationTime = some time ∧ deps.resolveKey kid time = .ok key ∧
    SignedBy assertion key ∧
    field payload "iss" = .str configuration.issuer ∧
    (field payload "aud" = .str configuration.audience ∨
      ∃ items, field payload "aud" = .arr items ∧ .str configuration.audience ∈ items) ∧
    (∃ (exp iat : Int) (nbf : Option Int), field payload "exp" = .num exp ∧
      field payload "iat" = .num iat ∧
      (field payload "nbf" = .undefined ∧ nbf = none ∨
        ∃ n : Int, nbf = some n ∧ field payload "nbf" = .num n) ∧
      TimesFit exp iat nbf time) ∧
    field payload "sub" = .str sub ∧
    (isRunId sub = true → principal.kind = .human ∧ principal.principalId = sub) ∧
    (principal.kind = .human → isRunId sub = true) ∧
    (principal.kind = .service → sub = "" ∧ ∃ commonName,
      field payload "common_name" = .str commonName ∧
      tokens.resolve commonName = some principal.principalId)

theorem unauthenticated_ne {reason : String} {principal : AdministrativePrincipal} :
    unauthenticated reason ≠ .ok (.authenticated principal) := by
  unfold unauthenticated
  split <;> simp

theorem refused_ne {unavailable : Prop} [Decidable unavailable] {reason : String}
    {principal : AdministrativePrincipal} :
    (if unavailable then .ok .unavailable else unauthenticated reason) ≠
      .ok (.authenticated principal) := by
  split_ifs
  · simp
  · exact unauthenticated_ne

theorem answerKeyError_ne {keyError : Thrown} {principal : AdministrativePrincipal} :
    answerKeyError keyError ≠ .ok (.authenticated principal) := by
  unfold answerKeyError
  split_ifs
  · simp
  · exact unauthenticated_ne
  · simp

/-- The principal of an answer: by `sub` first, then by the name of a service token. -/
theorem answerIdentity_authenticated {tokens : ServiceTokenPrincipals} {claims : ValidClaims}
    {principal : AdministrativePrincipal}
    (h : answerIdentity tokens claims = .ok (.authenticated principal)) :
    (isRunId claims.sub = true ∧ principal.kind = .human ∧ principal.principalId = claims.sub) ∨
    (claims.sub = "" ∧ principal.kind = .service ∧
      ∃ name, claims.commonName = some name ∧
        tokens.resolve name = some principal.principalId) := by
  unfold answerIdentity at h
  split at h
  · exact absurd h unauthenticated_ne
  · rename_i principalId kind hidentity
    obtain ⟨made, hmade, h⟩ := exists_of_bind_ok h
    cases h
    unfold createAdministrativePrincipal at hmade
    split_ifs at hmade
    cases hmade
    unfold resolveIdentity at hidentity
    by_cases hcanonical : isRunId claims.sub = true
    · rw [if_pos hcanonical] at hidentity
      cases hidentity
      exact Or.inl ⟨hcanonical, rfl, rfl⟩
    · rw [if_neg hcanonical] at hidentity
      by_cases hempty : claims.sub = ""
      · rw [if_neg (not_not.mpr hempty)] at hidentity
        split at hidentity
        · cases hidentity
        · rename_i commonName hname
          obtain ⟨id, hid, hpair⟩ := Option.map_eq_some_iff.mp hidentity
          cases hpair
          exact Or.inr ⟨hempty, rfl, commonName, hname, hid⟩
      · rw [if_pos hempty] at hidentity
        cases hidentity

theorem verify_authenticated {tokens : ServiceTokenPrincipals} {assertion : String}
    {verificationTime : Date} {principal : AdministrativePrincipal}
    (h : verify deps configuration tokens assertion verificationTime =
      .ok (.authenticated principal)) :
    ∃ kid claims time key,
      readAssertion deps configuration assertion verificationTime = .ok (kid, claims, time) ∧
      deps.resolveKey kid time = .ok key ∧
      deps.jwtVerify assertion key (verifyOptions configuration time) = .ok () ∧
      answerIdentity tokens claims = .ok (.authenticated principal) := by
  unfold verify at h
  split at h
  · rename_i result hbody
    cases h
    obtain ⟨⟨kid, claims, time⟩, hread, hrest⟩ := exists_of_bind_ok hbody
    dsimp only at hrest
    split at hrest
    · exact absurd hrest answerKeyError_ne
    · rename_i key hkey
      split at hrest
      · exact absurd hrest refused_ne
      · rename_i haccepted
        exact ⟨kid, claims, time, key, hread, hkey, haccepted, hrest⟩
  · exact absurd h refused_ne

/-- An authenticated answer is earned, when the library accepts only what is signed. -/
theorem earned_of_authenticated {SignedBy : String → Key → Prop}
    (hjose : AcceptsOnlySigned deps SignedBy) {tokens : ServiceTokenPrincipals}
    {assertion : String} {verificationTime : Date} {principal : AdministrativePrincipal}
    (h : verify deps configuration tokens assertion verificationTime =
      .ok (.authenticated principal)) :
    Earned deps SignedBy configuration tokens assertion verificationTime principal := by
  obtain ⟨kid, claims, time, key, hread, hkey, haccepted, hidentity⟩ := verify_authenticated h
  obtain ⟨header, payload, htoken, hkid, hclaims, htime, htemporal⟩ := readAssertion_eq_ok hread
  obtain ⟨hsigned, hissuer, haudience⟩ := hjose _ _ _ _ _ htoken haccepted
  refine ⟨header, payload, kid, time, key, claims.sub, htoken, hkid, htime, hkey, hsigned, hissuer,
    haudience, ⟨claims.exp, claims.iat, claims.nbf, hclaims.exp, hclaims.iat, hclaims.nbf,
      htemporal⟩, hclaims.sub, ?_⟩
  rcases answerIdentity_authenticated hidentity with
    ⟨hcanonical, hkind, hid⟩ | ⟨hempty, hkind, name, hname, hresolve⟩
  · exact ⟨fun _ => ⟨hkind, hid⟩, fun _ => hcanonical, by simp [hkind]⟩
  · have hnot : ¬ isRunId claims.sub = true := by
      rw [hempty]
      decide
    exact ⟨fun hcanonical => absurd hcanonical hnot, by simp [hkind],
      fun _ => ⟨hempty, name, hclaims.commonName name hname, hresolve⟩⟩

/-- The answer to an error that is thrown is one of the valid ones. -/
theorem exists_unauthenticated (error : Thrown) :
    ∃ result, unauthenticated (extractVerificationReason error) = .ok result := by
  have hvalid : ∀ reason ∈ validReasons.map (·.1),
      ∃ result, unauthenticated reason = .ok result := by
    intro reason hmem
    simp only [validReasons, List.map_cons, List.map_nil, List.mem_cons, List.not_mem_nil,
      or_false] at hmem
    rcases hmem with h | h | h | h | h | h | h <;> rw [h] <;> exact ⟨_, rfl⟩
  refine hvalid _ ?_
  unfold extractVerificationReason
  split
  · decide
  · decide
  · decide
  · decide
  · decide
  · decide
  · split_ifs <;> decide

/-- Every call answers. -/
theorem verify_answers (tokens : ServiceTokenPrincipals) (assertion : String)
    (verificationTime : Date) :
    ∃ result, verify deps configuration tokens assertion verificationTime = .ok result := by
  unfold verify
  split
  · exact ⟨_, rfl⟩
  · split_ifs
    · exact ⟨_, rfl⟩
    · exact exists_unauthenticated _

/-- Where the library does not accept, the declared service tokens play no part. -/
theorem verify_eq_of_rejected {tokens tokens' : ServiceTokenPrincipals} {assertion : String}
    {verificationTime : Date}
    (h : ∀ kid claims time key,
      readAssertion deps configuration assertion verificationTime = .ok (kid, claims, time) →
      deps.resolveKey kid time = .ok key →
      deps.jwtVerify assertion key (verifyOptions configuration time) ≠ .ok ()) :
    verify deps configuration tokens assertion verificationTime =
      verify deps configuration tokens' assertion verificationTime := by
  have hbody : verifyBody deps configuration tokens assertion verificationTime =
      verifyBody deps configuration tokens' assertion verificationTime := by
    unfold verifyBody
    cases hread : readAssertion deps configuration assertion verificationTime with
    | error e => rfl
    | ok read =>
        obtain ⟨kid, claims, time⟩ := read
        simp only [bind, Except.bind]
        cases hkey : deps.resolveKey kid time with
        | error e => rfl
        | ok key =>
            dsimp only
            cases haccepted : deps.jwtVerify assertion key (verifyOptions configuration time) with
            | error e => rfl
            | ok u => exact absurd haccepted (h kid claims time key hread hkey)
  unfold verify
  rw [hbody]

/-- The signature of an assertion is not that of the key its header names. -/
def SignatureFails (deps : Dependencies Key) (SignedBy : String → Key → Prop)
    (assertion : String) (verificationTime : Date) : Prop :=
  ∀ header payload kid time key, TokenOf deps.parseJson assertion header payload →
    field header "kid" = .str kid → verificationTime = some time →
    deps.resolveKey kid time = .ok key → ¬ SignedBy assertion key

/-- **Verification**: every call answers; an authenticated answer is earned; and when the
signature fails the answer is the same whatever service tokens are declared. -/
theorem verify_safe (deps : Dependencies Key) (SignedBy : String → Key → Prop)
    (configuration : CloudflareAccessConfiguration) (assertion : String)
    (verificationTime : Date) (hjose : AcceptsOnlySigned deps SignedBy) :
    (∀ tokens, ∃ result,
      verify deps configuration tokens assertion verificationTime = .ok result) ∧
    (∀ tokens principal, verify deps configuration tokens assertion verificationTime =
        .ok (.authenticated principal) →
      Earned deps SignedBy configuration tokens assertion verificationTime principal) ∧
    (SignatureFails deps SignedBy assertion verificationTime → ∀ tokens tokens',
      verify deps configuration tokens assertion verificationTime =
        verify deps configuration tokens' assertion verificationTime) := by
  refine ⟨fun tokens => verify_answers tokens assertion verificationTime,
    fun tokens principal h => earned_of_authenticated hjose h, fun hfails tokens tokens' => ?_⟩
  refine verify_eq_of_rejected fun kid claims time key hread hkey haccepted => ?_
  obtain ⟨header, payload, htoken, hkid, _, htime, _⟩ := readAssertion_eq_ok hread
  exact hfails _ _ _ _ _ htoken hkid htime hkey (hjose _ _ _ _ _ htoken haccepted).1

end Verify

/-! ### A login -/

def loginHeader : Fields := [("alg", .str "RS256"), ("kid", .str "k1")]

def loginPayload : Fields :=
  [("iss", .str "https://team.cloudflareaccess.com"), ("aud", .str "atlas"),
    ("sub", .str "11111111-1111-4111-8111-111111111111"), ("exp", .num 1800000000),
    ("iat", .num 1799990000), ("type", .str "app")]

def loginHeaderBytes : List UInt8 := "\x7b\"alg\":\"RS256\",\"kid\":\"k1\"\x7d".toUTF8.toList

def loginPayloadBytes : List UInt8 :=
  ("\x7b\"iss\":\"https://team.cloudflareaccess.com\",\"aud\":\"atlas\"," ++
    "\"sub\":\"11111111-1111-4111-8111-111111111111\",\"exp\":1800000000," ++
    "\"iat\":1799990000,\"type\":\"app\"\x7d").toUTF8.toList

def loginAssertion : String :=
  String.ofList (Base64.encode loginHeaderBytes ++ '.' ::
    (Base64.encode loginPayloadBytes ++ '.' :: Base64.encode [1, 2, 3]))

def loginConfiguration : CloudflareAccessConfiguration :=
  ⟨"https://team.cloudflareaccess.com", "atlas"⟩

/-- A provider with one key, whose number is 7, and a library that accepts its token. -/
def loginDependencies : Dependencies Nat where
  parseJson bytes :=
    if bytes = loginHeaderBytes then some (.obj loginHeader)
    else if bytes = loginPayloadBytes then some (.obj loginPayload)
    else none
  resolveKey kid _ :=
    if kid = "k1" then .ok 7
    else .error (.error "CloudflareAccessJwksKeyNotFoundError" "key not found")
  jwtVerify assertion key options :=
    if assertion = loginAssertion ∧ key = 7 ∧ options.issuer = loginConfiguration.issuer ∧
        options.audience = loginConfiguration.audience then
      .ok ()
    else .error (.error "JWSSignatureVerificationFailed" "signature verification failed")

theorem verify_safe_login :
    ∃ principal, verify loginDependencies loginConfiguration emptyServiceTokenPrincipals
        loginAssertion (some ⟨1799995000000, by decide⟩) = .ok (.authenticated principal) ∧
      Earned loginDependencies (fun assertion key => assertion = loginAssertion ∧ key = 7)
        loginConfiguration emptyServiceTokenPrincipals loginAssertion
        (some ⟨1799995000000, by decide⟩) principal := by
  let time : Timestamp := ⟨1799995000000, by decide⟩
  have hheader : loginHeaderBytes ≠ [] ∧ loginHeaderBytes.length ≤ MAX_HEADER_BYTES := by
    decide +kernel
  have hpayload : loginPayloadBytes ≠ [] ∧ loginPayloadBytes.length ≤ MAX_PAYLOAD_BYTES := by
    decide +kernel
  have hne : loginPayloadBytes ≠ loginHeaderBytes := by decide +kernel
  have hparseHeader : loginDependencies.parseJson loginHeaderBytes = some (.obj loginHeader) :=
    if_pos rfl
  have hparsePayload : loginDependencies.parseJson loginPayloadBytes = some (.obj loginPayload) :=
    (if_neg hne).trans (if_pos rfl)
  have htoken : TokenOf loginDependencies.parseJson loginAssertion loginHeader loginPayload :=
    ⟨loginHeaderBytes, loginPayloadBytes, [1, 2, 3], hheader.1, hpayload.1, by decide, rfl,
      hparseHeader, hparsePayload⟩
  have hjose : AcceptsOnlySigned loginDependencies
      fun assertion key => assertion = loginAssertion ∧ key = 7 := by
    intro assertion key options header payload hother haccepted
    simp only [loginDependencies] at haccepted
    split_ifs at haccepted with haccept
    obtain ⟨rfl, rfl, hissuer, haudience⟩ := haccept
    rw [← (htoken.unique hother).2]
    exact ⟨⟨rfl, rfl⟩, by rw [hissuer]; rfl, Or.inl (by rw [haudience]; rfl)⟩
  obtain ⟨claims, hclaims, htimes, principal, hidentity⟩ : ∃ claims,
      validateClaims loginPayload loginConfiguration.audience = .ok claims ∧
      validateTemporalClaims claims time = .ok () ∧
      ∃ principal, answerIdentity emptyServiceTokenPrincipals claims =
        .ok (.authenticated principal) := ⟨_, rfl, rfl, _, rfl⟩
  have hread : readAssertion loginDependencies loginConfiguration loginAssertion (some time) =
      .ok ("k1", claims, time) :=
    readAssertion_encode hheader hpayload (by decide) hparseHeader hparsePayload rfl hclaims htimes
  have hkey : loginDependencies.resolveKey "k1" time = .ok 7 := rfl
  have haccepts : loginDependencies.jwtVerify loginAssertion 7
      (verifyOptions loginConfiguration time) = .ok () := if_pos ⟨rfl, rfl, rfl, rfl⟩
  have hverify := verify_of_accepted hread hkey haccepts hidentity
  exact ⟨principal, hverify, (verify_safe _ _ _ _ _ hjose).2.1 _ _ hverify⟩

end AtlasManager.AccessControl.JwtVerifier
