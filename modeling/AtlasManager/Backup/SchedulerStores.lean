import AtlasManager.Backup.ClaimStore
import AtlasManager.Lib.DocStore
import AtlasManager.Lib.Ledger

/-!
# AtlasManager.Backup.SchedulerStores

The two stores of the backup scheduler, called one call after another.

* `Claims` -- a call of `claim` that no other call interrupts; `claims_cases` says
  what it may do;
* `CursorState` -- the cursor with its file; `Loads`, `ReadsCursor` and `SetsCursor`
  are its calls.
-/

namespace AtlasManager.Backup

open AtlasManager.Lib

/-! ## Claims -/

section Claims

variable {targetId scheduledFor : String} {state state' : ClaimState} {answer : ClaimAnswer}

/-- A call from a point where it waits to its answer, with no other call in between. -/
inductive CallRun (targetId scheduledFor : String) :
    ClaimState → ClaimPhase → ClaimAnswer → ClaimState → Prop where
  | answers {state phase state' answer} :
    CallStep targetId scheduledFor state phase state' (.inr answer) →
    CallRun targetId scheduledFor state phase answer state'
  | goesOn {state phase state' phase' answer state''} :
    CallStep targetId scheduledFor state phase state' (.inl phase') →
    CallRun targetId scheduledFor state' phase' answer state'' →
    CallRun targetId scheduledFor state phase answer state''

/-- A call of `claim`.  What a process leaves that dies in the middle of one, a call
that fails may leave as well. -/
def Claims (targetId scheduledFor : String) (state : ClaimState) (answer : ClaimAnswer)
    (state' : ClaimState) : Prop :=
  CallRun targetId scheduledFor (startClaim state).1 (startClaim state).2 answer state'

/-- The set that a call finds after `load`, and whether `load` returned, when the
file can be read. -/
def loadClaims (state : ClaimState) : List String × Bool :=
  if state.isLoaded then (state.claims, true) else loadLines state.file.lines state.claims

/-- The claim is on file, or the file cannot be read any more. -/
def ClaimState.Keeps (state : ClaimState) (key : String) : Prop :=
  key ∈ ClaimFile.keys state.file.lines ∨ .broken ∈ state.file.lines

/-- `claim` when no call of the file system fails. -/
def claim (targetId scheduledFor : String) (state : ClaimState) : ClaimAnswer × ClaimState :=
  let (claims, returned) := loadClaims state
  let loaded := { state with claims, isLoaded := true }
  if !returned then (.failed, loaded)
  else if claimKey targetId scheduledFor ∈ claims then (.duplicate, loaded)
  else (.claimed, { loaded with
    file := state.file.append targetId scheduledFor
    claims := addNew claims (claimKey targetId scheduledFor) })

theorem claims_claim (targetId scheduledFor : String) (state : ClaimState) :
    Claims targetId scheduledFor state (claim targetId scheduledFor state).1
      (claim targetId scheduledFor state).2 := by
  -- what follows `load`
  have hchecked : ∀ loaded : ClaimState, loaded.isLoaded = true → ∀ claims, loaded.claims = claims →
      CallRun targetId scheduledFor loaded .loaded
        (if claimKey targetId scheduledFor ∈ claims then .duplicate else .claimed)
        (if claimKey targetId scheduledFor ∈ claims then loaded else
          { loaded with
            file := loaded.file.append targetId scheduledFor
            claims := addNew claims (claimKey targetId scheduledFor) }) := by
    rintro loaded - claims rfl
    split
    · next hkey => exact .answers (.finds hkey)
    · next hkey =>
        exact .goesOn (.checks hkey) (.goesOn .ensures (.goesOn .appends (.answers .adds)))
  obtain ⟨file, claims, isLoaded⟩ := state
  cases isLoaded with
  | true =>
      have h := hchecked ⟨file, claims, true⟩ rfl claims rfl
      simp only [Claims, claim, loadClaims, startClaim, if_true, Bool.not_true, Bool.false_eq_true,
        if_false]
      split
      · next hkey => simpa only [if_pos hkey] using h
      · next hkey => simpa only [if_neg hkey] using h
  | false =>
      rcases hlines : loadLines file.lines claims with ⟨claims', returned⟩
      simp only [Claims, claim, loadClaims, startClaim, Bool.false_eq_true, if_false, hlines]
      cases returned with
      | false => exact .goesOn .reads (.answers (.loadFails hlines))
      | true =>
          have h := hchecked ⟨file, claims', true⟩ rfl claims' rfl
          refine .goesOn .reads (.goesOn (.loads hlines) ?_)
          simp only [Bool.not_true, Bool.false_eq_true, if_false]
          split
          · next hkey => simpa only [if_pos hkey] using h
          · next hkey => simpa only [if_neg hkey] using h

/-- What a call leaves that does not fail: the set has been loaded; a duplicate is
in the set, and a new claim is added to the file and to the set. -/
inductive Answered (targetId scheduledFor : String) (state : ClaimState) (claims : List String) :
    ClaimAnswer → ClaimState → Prop where
  | duplicate : claimKey targetId scheduledFor ∈ claims →
    Answered targetId scheduledFor state claims .duplicate { state with claims, isLoaded := true }
  | claimed : claimKey targetId scheduledFor ∉ claims →
    Answered targetId scheduledFor state claims .claimed {
      file := state.file.append targetId scheduledFor
      claims := addNew claims (claimKey targetId scheduledFor)
      isLoaded := true }

theorem callRun_loaded (hloaded : state.isLoaded = true)
    (h : CallRun targetId scheduledFor state .loaded answer state') :
    Answered targetId scheduledFor state state.claims answer state' ∨
      answer = .failed ∧ ∀ key, state.Keeps key → state'.Keeps key := by
  obtain ⟨file, claims, isLoaded⟩ := state
  obtain rfl : isLoaded = true := hloaded
  cases h with
  | answers hstep =>
      cases hstep with
      | finds hkey => exact .inl (.duplicate hkey)
  | goesOn hstep hrest =>
      cases hstep with
      | checks hkey =>
      cases hrest with
      | answers hstep =>
          cases hstep with
          | ensureFails => exact .inr ⟨rfl, fun _ hkept => hkept⟩
      | goesOn hstep hrest =>
      cases hstep with
      | ensures =>
      cases hrest with
      | answers hstep =>
          cases hstep with
          | appendFails hfails => exact .inr ⟨rfl, fun _ => kept_appendFails hfails⟩
      | goesOn hstep hrest =>
      cases hstep with
      | appends =>
      cases hrest with
      | answers hstep =>
          cases hstep with
          | adds => exact .inl (.claimed hkey)
      | goesOn hstep _ => nomatch hstep

/-- What a call may do: it answers from the set that `load` leaves, or it fails. -/
theorem claims_cases (h : Claims targetId scheduledFor state answer state') :
    (∃ claims, loadClaims state = (claims, true) ∧
      Answered targetId scheduledFor state claims answer state') ∨
    answer = .failed ∧ ∀ key, state.Keeps key → state'.Keeps key := by
  obtain ⟨file, claims, isLoaded⟩ := state
  cases isLoaded with
  | true =>
      exact (callRun_loaded rfl h).imp_left fun hanswered => ⟨claims, rfl, hanswered⟩
  | false =>
      -- the file is read first
      cases h with
      | answers hstep =>
          cases hstep with
          | readFails => exact .inr ⟨rfl, fun _ hkept => hkept⟩
      | goesOn hstep hrest =>
      cases hstep with
      | reads =>
      cases hrest with
      | answers hstep =>
          cases hstep with
          | loadFails => exact .inr ⟨rfl, fun _ hkept => hkept⟩
      | goesOn hstep hrest =>
      cases hstep with
      | loads hlines =>
          refine (callRun_loaded rfl hrest).imp_left fun hanswered => ⟨_, hlines, ?_⟩
          cases hanswered with
          | duplicate hkey => exact .duplicate hkey
          | claimed hkey => exact .claimed hkey

/-- Does the store know a key: from the file when it has not been loaded, from the set after. -/
def ClaimState.Knows (state : ClaimState) (key : String) : Prop :=
  state.Keeps key ∧ (state.isLoaded = true → key ∈ state.claims)

theorem ClaimState.Knows.mem_loadClaims {key : String} {claims : List String}
    (h : state.Knows key) (hload : loadClaims state = (claims, true)) : key ∈ claims := by
  unfold loadClaims at hload
  split at hload
  · next hloaded =>
      obtain ⟨rfl, -⟩ := Prod.mk.inj hload
      exact h.2 hloaded
  · obtain ⟨hbroken, -, hkeys⟩ := loadLines_ok hload
    exact hkeys (h.1.resolve_right hbroken)

/-- What is on file stays there. -/
theorem Claims.keeps (h : Claims targetId scheduledFor state answer state') {key : String}
    (hkept : state.Keeps key) : state'.Keeps key := by
  rcases claims_cases h with ⟨claims, -, hanswered⟩ | ⟨-, hkeeps⟩
  · cases hanswered with
    | duplicate => exact hkept
    | claimed => exact kept_write _ _ hkept
  · exact hkeeps key hkept

/-- What a store knows it knows after a call that does not fail. -/
theorem Claims.knows (h : Claims targetId scheduledFor state answer state')
    (hanswer : answer ≠ .failed) {key : String} (hknows : state.Knows key) :
    state'.Knows key := by
  refine ⟨h.keeps hknows.1, fun _ => ?_⟩
  rcases claims_cases h with ⟨claims, hload, hanswered⟩ | ⟨hfailed, -⟩
  · have hmem := hknows.mem_loadClaims hload
    cases hanswered with
    | duplicate => exact hmem
    | claimed => exact mem_addNew.mpr (.inl hmem)
  · exact absurd hfailed hanswer

/-- A key that is claimed was not known, and is known from now on. -/
theorem Claims.claimed (h : Claims targetId scheduledFor state .claimed state') :
    ¬ state.Knows (claimKey targetId scheduledFor) ∧
      state'.Knows (claimKey targetId scheduledFor) := by
  rcases claims_cases h with ⟨claims, hload, hanswered⟩ | ⟨hfailed, -⟩
  · cases hanswered with
    | claimed hnew =>
        exact ⟨fun hknows => hnew (hknows.mem_loadClaims hload), written_append _ _,
          fun _ => mem_addNew.mpr (.inr rfl)⟩
  · cases hfailed

end Claims

/-! ## The cursor -/

/-- The cursor in memory, and its file. -/
structure CursorState where
  file : Option (Content Timestamp)
  value : Option Timestamp
  isLoaded : Bool

namespace CursorState

/-- A store over a file, in a process that has just started. -/
def opened (file : Option (Content Timestamp)) : CursorState where
  file := file
  value := none
  isLoaded := false

/-- The cursor that `read` answers when the file can be read. -/
def current (state : CursorState) : Option Timestamp :=
  if state.isLoaded then state.value else documentIn state.file

end CursorState

/-- `load`, and whether it returns.  Only the first one reads the file. -/
inductive Loads : CursorState → CursorState → Bool → Prop where
  | already {state} : state.isLoaded = true → Loads state state true
  /-- The file cannot be read, or is not a cursor. -/
  | fails {state} : state.isLoaded = false → Loads state { state with isLoaded := true } false
  | missing {state} : state.isLoaded = false → state.file = none →
    Loads state { state with isLoaded := true } true
  | document {state cursor} : state.isLoaded = false → state.file = some (.document cursor) →
    Loads state { state with value := some cursor, isLoaded := true } true

/-- `read`; `none` is a thrown error. -/
def ReadsCursor (state : CursorState) (answer : Option (Option Timestamp))
    (state' : CursorState) : Prop :=
  (Loads state state' true ∧ answer = some state'.value) ∨ (Loads state state' false ∧ answer = none)

/-- `compareAndSet`; `none` is a thrown error, which leaves the file as it is. -/
inductive SetsCursor (expected : Option Timestamp) (next : Timestamp) (state : CursorState) :
    Option Bool → CursorState → Prop where
  | loadFails {state'} : Loads state state' false → SetsCursor expected next state none state'
  | conflict {state'} : Loads state state' true → state'.value ≠ expected →
    SetsCursor expected next state (some false) state'
  | writeFails {state'} : Loads state state' true → state'.value = expected →
    SetsCursor expected next state none state'
  | sets {state'} : Loads state state' true → state'.value = expected →
    SetsCursor expected next state (some true)
      { state' with file := some (.document next), value := some next }

/-- `load` when the file can be read. -/
def CursorState.load (state : CursorState) : Bool × CursorState :=
  if state.isLoaded then (true, state)
  else
    match state.file with
    | some (.document cursor) => (true, { state with value := some cursor, isLoaded := true })
    | some .other => (false, { state with isLoaded := true })
    | none => (true, { state with isLoaded := true })

theorem loads_load (state : CursorState) : Loads state state.load.2 state.load.1 := by
  obtain ⟨file, value, isLoaded⟩ := state
  cases isLoaded with
  | true => exact .already rfl
  | false =>
      match file with
      | some (.document cursor) => exact .document rfl rfl
      | some .other => exact .fails rfl
      | none => exact .missing rfl rfl

theorem Loads.file_eq {state state' : CursorState} {returned : Bool}
    (h : Loads state state' returned) : state'.file = state.file := by
  cases h <;> rfl

theorem Loads.isLoaded {state state' : CursorState} {returned : Bool}
    (h : Loads state state' returned) : state'.isLoaded = true := by
  cases h with
  | already hloaded => exact hloaded
  | _ => rfl

/-- A store that could be loaded has in memory what `current` says. -/
theorem Loads.value_eq {state state' : CursorState} (h : Loads state state' true)
    (hvalue : state.isLoaded = false → state.value = none) : state'.value = state.current := by
  cases h with
  | already hloaded => simp [CursorState.current, hloaded]
  | missing hloaded hfile => simp [CursorState.current, hloaded, hfile, documentIn, hvalue hloaded]
  | document hloaded hfile => simp [CursorState.current, hloaded, hfile, documentIn]

end AtlasManager.Backup
