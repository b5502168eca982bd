import AtlasManager.Lib.Js

/-!
# AtlasManager.Backup.ClaimStore

The claims of backup occurrences in a file that only grows, with a set of the
claimed keys in memory that is filled by the first call.

* `CallStep` -- what a call of `claim` does between two points where it waits;
* `StoreStep` -- the store with the calls that are under way;
* `orderly_claims_once` -- when every call checks a set that has been filled and
  that no other call for its key is about to change, a key is claimed once.
-/

namespace AtlasManager.Backup

open AtlasManager.Lib

/-! ## The file -/

/-- A line of the file: a claim, or anything that is not read as one. -/
inductive ClaimLine where
  | claim (targetId scheduledFor : String)
  | broken
  deriving DecidableEq

/-- The lines of the file; `torn` when the last one lacks its end. -/
structure ClaimFile where
  lines : List ClaimLine
  torn : Bool

/-- The key of a claim. -/
def claimKey (targetId scheduledFor : String) : String := targetId ++ "\n" ++ scheduledFor

def ClaimLine.key? : ClaimLine → Option String
  | .claim targetId scheduledFor => some (claimKey targetId scheduledFor)
  | .broken => none

namespace ClaimFile

def keys (lines : List ClaimLine) : List String := lines.filterMap (·.key?)

/-- The file after a text has been written to its end.  Two texts on one line
are not a claim. -/
def write (file : ClaimFile) (line : ClaimLine) (ended : Bool) : ClaimFile where
  lines := if file.torn then file.lines.dropLast ++ [.broken] else file.lines ++ [line]
  torn := !ended

/-- `appendFile` of a claim. -/
def append (file : ClaimFile) (targetId scheduledFor : String) : ClaimFile :=
  file.write (.claim targetId scheduledFor) true

/-- What an `appendFile` that throws may leave: nothing new, the whole line, or a part of it. -/
inductive AppendFails (file : ClaimFile) (targetId scheduledFor : String) : ClaimFile → Prop where
  | nothing : AppendFails file targetId scheduledFor file
  | whole : AppendFails file targetId scheduledFor (file.append targetId scheduledFor)
  | part {line} : line = .claim targetId scheduledFor ∨ line = .broken →
      AppendFails file targetId scheduledFor (file.write line false)

end ClaimFile

/-! ## A call -/

/-- What a store has in memory, and its file. -/
structure ClaimState where
  file : ClaimFile
  claims : List String
  isLoaded : Bool

/-- The block of `load` over the lines that were read: the keys of the claims
are added one by one, until a line is no claim or repeats one. -/
def loadLines : List ClaimLine → List String → List String × Bool
  | [], claims => (claims, true)
  | line :: lines, claims =>
    match line.key? with
    | none => (claims, false)
    | some key => if key ∈ claims then (claims, false) else loadLines lines (addNew claims key)

/-- Where a call of `claim` waits. -/
inductive ClaimPhase where
  /-- For the file, which nobody has read yet. -/
  | reading
  /-- For its turn, now that the lines have been read. -/
  | read (lines : List ClaimLine)
  /-- For its turn, after `load` has returned. -/
  | loaded
  /-- For `ensurePrivateFile`, after the check that the key is new. -/
  | ensuring
  /-- For `appendFile`. -/
  | appending
  /-- For its turn, after the line has been written. -/
  | appended
  deriving DecidableEq

/-- `failed` is a thrown error. -/
inductive ClaimAnswer where
  | claimed
  | duplicate
  | failed
  deriving DecidableEq, Repr

/-- A call that starts finds out whether somebody has begun to load the claims. -/
def startClaim (state : ClaimState) : ClaimState × ClaimPhase :=
  if state.isLoaded then (state, .loaded) else ({ state with isLoaded := true }, .reading)

/-- What a call does from one point where it waits to the next, or to its answer. -/
inductive CallStep (targetId scheduledFor : String) :
    ClaimState → ClaimPhase → ClaimState → ClaimPhase ⊕ ClaimAnswer → Prop where
  | readFails {state} :
    CallStep targetId scheduledFor state .reading state (.inr .failed)
  | reads {state} :
    CallStep targetId scheduledFor state .reading state (.inl (.read state.file.lines))
  | loads {state lines claims} : loadLines lines state.claims = (claims, true) →
    CallStep targetId scheduledFor state (.read lines) { state with claims } (.inl .loaded)
  | loadFails {state lines claims} : loadLines lines state.claims = (claims, false) →
    CallStep targetId scheduledFor state (.read lines) { state with claims } (.inr .failed)
  | finds {state} : claimKey targetId scheduledFor ∈ state.claims →
    CallStep targetId scheduledFor state .loaded state (.inr .duplicate)
  | checks {state} : claimKey targetId scheduledFor ∉ state.claims →
    CallStep targetId scheduledFor state .loaded state (.inl .ensuring)
  /-- The file is not private, or the line is too long. -/
  | ensureFails {state} :
    CallStep targetId scheduledFor state .ensuring state (.inr .failed)
  | ensures {state} :
    CallStep targetId scheduledFor state .ensuring state (.inl .appending)
  | appendFails {state file} : state.file.AppendFails targetId scheduledFor file →
    CallStep targetId scheduledFor state .appending { state with file } (.inr .failed)
  | appends {state} :
    CallStep targetId scheduledFor state .appending
      { state with file := state.file.append targetId scheduledFor } (.inl .appended)
  | adds {state} :
    CallStep targetId scheduledFor state .appended
      { state with claims := addNew state.claims (claimKey targetId scheduledFor) } (.inr .claimed)

/-! ## The store -/

/-- A call under way. -/
structure ClaimCall where
  targetId : String
  scheduledFor : String
  phase : ClaimPhase

def ClaimCall.key (call : ClaimCall) : String := claimKey call.targetId call.scheduledFor

/-- The store, the calls that are under way, and what has been answered: the keys
with the answers, and whether the load of the claims had failed. -/
structure ClaimStore where
  state : ClaimState
  calls : List ClaimCall
  loadFailed : Bool
  answers : List (String × ClaimAnswer × Bool)

namespace ClaimStore

/-- A store over a file, in a process that has just started. -/
def opened (file : ClaimFile) : ClaimStore where
  state := { file, claims := [], isLoaded := false }
  calls := []
  loadFailed := false
  answers := []

/-- Is a failure of this phase a failure of the load? -/
def isLoading : ClaimPhase → Bool
  | .reading | .read _ => true
  | _ => false

/-- The keys that were answered `claimed`. -/
def claimedKeys (store : ClaimStore) : List String :=
  store.answers.filterMap fun answer => if answer.2.1 = .claimed then some answer.1 else none

end ClaimStore

open ClaimStore

/-- A call starts or goes on, or the process is started again. -/
inductive StoreStep : ClaimStore → ClaimStore → Prop where
  | call {store} (targetId scheduledFor : String) :
    StoreStep store { store with
      state := (startClaim store.state).1
      calls := store.calls ++ [⟨targetId, scheduledFor, (startClaim store.state).2⟩] }
  | goesOn {store before call after state phase} : store.calls = before ++ call :: after →
    CallStep call.targetId call.scheduledFor store.state call.phase state (.inl phase) →
    StoreStep store { store with state, calls := before ++ { call with phase } :: after }
  | answers {store before call after state answer} : store.calls = before ++ call :: after →
    CallStep call.targetId call.scheduledFor store.state call.phase state (.inr answer) →
    StoreStep store {
      state, calls := before ++ after
      loadFailed := store.loadFailed || (isLoading call.phase && answer = .failed)
      answers := (call.key, answer, store.loadFailed) :: store.answers }
  | restart {store} :
    StoreStep store { store with
      state := { file := store.state.file, claims := [], isLoaded := false }
      calls := [], loadFailed := false }

/-- A run of the store. -/
inductive StoreRun (ok : ClaimStore → ClaimStore → Prop) (start : ClaimStore) :
    ClaimStore → Prop where
  | start : StoreRun ok start start
  | step {store store'} : StoreRun ok start store → StoreStep store store' → ok store store' →
      StoreRun ok start store'

/-! ## Runs in order -/

/-- Has a call checked that its key is new, and not yet added it? -/
def pastCheck : ClaimPhase → Bool
  | .ensuring | .appending | .appended => true
  | _ => false

/-- In this step a call, with these others under way, finds its key to be new. -/
def Checks (store store' : ClaimStore) (call : ClaimCall) (others : List ClaimCall) : Prop :=
  ∃ before after, store.calls = before ++ call :: after ∧ others = before ++ after ∧
    call.phase = .loaded ∧ call.key ∉ store.state.claims ∧
    store' = { store with calls := before ++ { call with phase := .ensuring } :: after }

/-- The set of the claimed keys has been filled, and no other call for the key of
this one is about to add it. -/
structure Settled (store : ClaimStore) (call : ClaimCall) (others : List ClaimCall) : Prop where
  filled : ∀ other ∈ others, isLoading other.phase = false
  notFailed : store.loadFailed = false
  alone : ∀ other ∈ others, pastCheck other.phase = true → other.key ≠ call.key

/-- Whenever a call finds its key to be new, the store is settled. -/
def Orderly (store store' : ClaimStore) : Prop :=
  ∀ call others, Checks store store' call others → Settled store call others

/-- What holds in a run whose checks are all in order. -/
structure InOrder (store : ClaimStore) : Prop where
  nodup : store.claimedKeys.Nodup
  honest : ∀ key failed, (key, .claimed, failed) ∈ store.answers → failed = false
  kept : ∀ key ∈ store.claimedKeys, key ∈ ClaimFile.keys store.state.file.lines ∨
    .broken ∈ store.state.file.lines
  known : store.state.isLoaded = true → (∀ call ∈ store.calls, isLoading call.phase = false) →
    store.loadFailed = false → ∀ key ∈ store.claimedKeys, key ∈ store.state.claims
  snapshot : ∀ call ∈ store.calls, ∀ lines, call.phase = .read lines →
    ∀ key ∈ store.claimedKeys, key ∈ ClaimFile.keys lines ∨ .broken ∈ lines
  written : ∀ call ∈ store.calls, call.phase = .appended →
    call.key ∈ ClaimFile.keys store.state.file.lines ∨ .broken ∈ store.state.file.lines
  begun : (∃ call, call ∈ store.calls) ∨ store.loadFailed = true → store.state.isLoaded = true
  loader : (∃ call ∈ store.calls, isLoading call.phase = true) → store.loadFailed = false
  oneLoader : store.calls.Pairwise fun a b => isLoading a.phase = true → isLoading b.phase = false
  settled : ∀ call ∈ store.calls, pastCheck call.phase = true → store.loadFailed = false ∧
    (∀ other ∈ store.calls, isLoading other.phase = false) ∧ call.key ∉ store.claimedKeys
  distinct : store.calls.Pairwise fun a b =>
    pastCheck a.phase = true → pastCheck b.phase = true → a.key ≠ b.key

theorem inOrder_opened (file : ClaimFile) : InOrder (opened file) where
  nodup := List.nodup_nil
  honest _ _ h := by cases h
  kept _ h := by cases h
  known _ _ _ _ h := by cases h
  snapshot _ h := by cases h
  written _ h := by cases h
  begun h := by
    rcases h with ⟨_, h⟩ | h <;> cases h
  loader h := by
    obtain ⟨_, h, -⟩ := h
    cases h
  oneLoader := List.Pairwise.nil
  settled _ h := by cases h
  distinct := List.Pairwise.nil

/-! ### The file and the lines -/

theorem keys_append (lines : List ClaimLine) (line : ClaimLine) :
    ClaimFile.keys (lines ++ [line]) = ClaimFile.keys lines ++ ClaimFile.keys [line] :=
  List.filterMap_append

/-- A key that is on file stays there, or the file cannot be read any more. -/
theorem kept_write {file : ClaimFile} {key : String} (line : ClaimLine) (ended : Bool)
    (h : key ∈ ClaimFile.keys file.lines ∨ .broken ∈ file.lines) :
    key ∈ ClaimFile.keys (file.write line ended).lines ∨ .broken ∈ (file.write line ended).lines := by
  simp only [ClaimFile.write]
  split
  · exact .inr (by simp)
  · rw [keys_append]
    exact h.imp (fun h => List.mem_append_left _ h) fun h => List.mem_append_left _ h

theorem written_append {file : ClaimFile} (targetId scheduledFor : String) :
    claimKey targetId scheduledFor ∈ ClaimFile.keys (file.append targetId scheduledFor).lines ∨
      .broken ∈ (file.append targetId scheduledFor).lines := by
  simp only [ClaimFile.append, ClaimFile.write]
  split
  · exact .inr (by simp)
  · exact .inl (by simp [ClaimFile.keys, ClaimLine.key?])

theorem kept_appendFails {file file' : ClaimFile} {targetId scheduledFor key : String}
    (h : file.AppendFails targetId scheduledFor file')
    (hkept : key ∈ ClaimFile.keys file.lines ∨ .broken ∈ file.lines) :
    key ∈ ClaimFile.keys file'.lines ∨ .broken ∈ file'.lines := by
  cases h with
  | nothing => exact hkept
  | whole => exact kept_write _ _ hkept
  | part => exact kept_write _ _ hkept

/-- Lines that were loaded without an error are all in the set. -/
theorem loadLines_ok {lines : List ClaimLine} {claims claims' : List String}
    (h : loadLines lines claims = (claims', true)) :
    .broken ∉ lines ∧ claims ⊆ claims' ∧ ClaimFile.keys lines ⊆ claims' := by
  induction lines generalizing claims with
  | nil =>
      obtain ⟨rfl, -⟩ := Prod.mk.inj h
      exact ⟨by simp, List.Subset.refl _, by simp [ClaimFile.keys]⟩
  | cons line lines ih =>
      rw [loadLines] at h
      cases line with
      | broken => cases h
      | claim targetId scheduledFor =>
          simp only [ClaimLine.key?] at h
          split at h
          · cases h
          · obtain ⟨hbroken, hclaims, hkeys⟩ := ih h
            refine ⟨by simp [hbroken], fun key hkey => hclaims (mem_addNew.mpr (.inl hkey)), ?_⟩
            intro key hkey
            simp only [ClaimFile.keys, ClaimLine.key?, List.filterMap_cons, List.mem_cons] at hkey
            rcases hkey with rfl | hkey
            · exact hclaims (mem_addNew.mpr (.inr rfl))
            · exact hkeys hkey

/-! ### Steps -/

section Steps

variable {store : ClaimStore} {caller : ClaimCall} {rest : List ClaimCall} {state : ClaimState}

/-- The order in which the calls under way are listed makes no difference. -/
theorem InOrder.perm (h : InOrder store) {calls : List ClaimCall} (hperm : store.calls.Perm calls) :
    InOrder { store with calls } where
  nodup := h.nodup
  honest := h.honest
  kept := h.kept
  known hloaded hfilled := h.known hloaded fun c hc => hfilled c (hperm.mem_iff.mp hc)
  snapshot c hc := h.snapshot c (hperm.mem_iff.mpr hc)
  written c hc := h.written c (hperm.mem_iff.mpr hc)
  begun hbegun := h.begun (hbegun.imp_left fun ⟨c, hc⟩ => ⟨c, hperm.mem_iff.mpr hc⟩)
  loader := fun ⟨c, hc, hloading⟩ => h.loader ⟨c, hperm.mem_iff.mpr hc, hloading⟩
  oneLoader := by
    refine (hperm.pairwise_iff ?_).mp h.oneLoader
    intro a b hab hb
    by_contra ha
    rw [hab (Bool.not_eq_false _ ▸ ha)] at hb
    cases hb
  settled c hc hpast := by
    obtain ⟨hfailed, hfilled, hnew⟩ := h.settled c (hperm.mem_iff.mpr hc) hpast
    exact ⟨hfailed, fun other hother => hfilled other (hperm.mem_iff.mpr hother), hnew⟩
  distinct :=
    (hperm.pairwise_iff fun hab hb ha => (hab ha hb).symm).mp h.distinct

theorem perm_focus {before after : List ClaimCall} (c : ClaimCall) :
    (before ++ c :: after).Perm (c :: (before ++ after)) := List.perm_middle

/-- A new call that finds the load begun. -/
theorem InOrder.call (h : InOrder store) (targetId scheduledFor : String) :
    InOrder { store with
      state := (startClaim store.state).1
      calls := ⟨targetId, scheduledFor, (startClaim store.state).2⟩ :: store.calls } := by
  cases hloaded : store.state.isLoaded with
  | true =>
      have hstart : startClaim store.state = (store.state, .loaded) := by simp [startClaim, hloaded]
      rw [hstart]
      exact {
        nodup := h.nodup
        honest := h.honest
        kept := h.kept
        known := fun _ hfilled => h.known hloaded fun c hc => hfilled c (List.mem_cons_of_mem _ hc)
        snapshot := List.forall_mem_cons.mpr ⟨nofun, h.snapshot⟩
        written := List.forall_mem_cons.mpr ⟨nofun, h.written⟩
        begun := fun _ => hloaded
        loader := by
          rintro ⟨c, hc, hloading⟩
          rcases List.mem_cons.mp hc with rfl | hc
          · cases hloading
          · exact h.loader ⟨c, hc, hloading⟩
        oneLoader := List.pairwise_cons.mpr ⟨fun _ _ => nofun, h.oneLoader⟩
        settled := by
          refine List.forall_mem_cons.mpr ⟨nofun, fun c hc hpast => ?_⟩
          obtain ⟨hfailed, hfilled, hnew⟩ := h.settled c hc hpast
          exact ⟨hfailed, List.forall_mem_cons.mpr ⟨rfl, hfilled⟩, hnew⟩
        distinct := List.pairwise_cons.mpr ⟨fun _ _ => nofun, h.distinct⟩ }
  | false =>
      -- nobody has called yet
      have hnone : store.calls = [] := by
        rw [List.eq_nil_iff_forall_not_mem]
        intro c hc
        rw [h.begun (.inl ⟨c, hc⟩)] at hloaded
        cases hloaded
      have hfailed : store.loadFailed = false := by
        by_contra hfailed
        rw [h.begun (.inr (Bool.not_eq_false _ ▸ hfailed))] at hloaded
        cases hloaded
      have hstart : startClaim store.state = ({ store.state with isLoaded := true }, .reading) := by
        simp [startClaim, hloaded]
      rw [hstart, hnone]
      exact {
        nodup := h.nodup
        honest := h.honest
        kept := h.kept
        known := fun _ hfilled => by
          have hreading := hfilled _ List.mem_cons_self
          cases hreading
        snapshot := List.forall_mem_singleton.mpr nofun
        written := List.forall_mem_singleton.mpr nofun
        begun := fun _ => rfl
        loader := fun _ => hfailed
        oneLoader := List.pairwise_singleton _ _
        settled := List.forall_mem_singleton.mpr nofun
        distinct := List.pairwise_singleton _ _ }

/-- A call that gets past the check, or goes on there. -/
theorem InOrder.past (h : InOrder store) (hcalls : store.calls = caller :: rest)
    {phase : ClaimPhase} (hpast : pastCheck phase = true) {file : ClaimFile}
    (hsettled : Settled store caller rest) (hcaller : isLoading caller.phase = false)
    (hunclaimed : caller.key ∉ store.claimedKeys)
    (hkept : ∀ key, key ∈ ClaimFile.keys store.state.file.lines ∨ .broken ∈ store.state.file.lines →
      key ∈ ClaimFile.keys file.lines ∨ .broken ∈ file.lines)
    (hwritten : phase = .appended → caller.key ∈ ClaimFile.keys file.lines ∨ .broken ∈ file.lines) :
    InOrder { store with
      state := { store.state with file }, calls := { caller with phase } :: rest } := by
  obtain ⟨state, calls, loadFailed, answers⟩ := store
  obtain rfl : calls = caller :: rest := hcalls
  obtain ⟨hfilled, hnotFailed, halone⟩ := hsettled
  have hbegun := h.begun (.inl ⟨_, List.mem_cons_self⟩)
  have hphase : isLoading phase = false := by cases phase <;> first | rfl | cases hpast
  have hnotRead : ∀ lines, phase ≠ .read lines := by
    rintro lines rfl
    cases hpast
  exact {
    nodup := h.nodup
    honest := h.honest
    kept := fun key hkey => hkept key (h.kept key hkey)
    known := fun _ _ _ => h.known hbegun (List.forall_mem_cons.mpr ⟨hcaller, hfilled⟩) hnotFailed
    snapshot := List.forall_mem_cons.mpr
      ⟨fun lines hread => absurd hread (hnotRead lines), (List.forall_mem_cons.mp h.snapshot).2⟩
    written := List.forall_mem_cons.mpr
      ⟨hwritten, fun c hc happended =>
        hkept c.key ((List.forall_mem_cons.mp h.written).2 c hc happended)⟩
    begun := fun _ => hbegun
    loader := fun _ => hnotFailed
    oneLoader := List.pairwise_cons.mpr
      ⟨fun c hc _ => hfilled c hc, (List.pairwise_cons.mp h.oneLoader).2⟩
    settled := List.forall_mem_cons.mpr
      ⟨fun _ => ⟨hnotFailed, List.forall_mem_cons.mpr ⟨hphase, hfilled⟩, hunclaimed⟩,
        fun c hc hpast => ⟨hnotFailed, List.forall_mem_cons.mpr ⟨hphase, hfilled⟩,
          ((List.forall_mem_cons.mp h.settled).2 c hc hpast).2.2⟩⟩
    distinct := List.pairwise_cons.mpr
      ⟨fun c hc _ hpast => (halone c hc hpast).symm, (List.pairwise_cons.mp h.distinct).2⟩ }

/-- A call that is past the check got there in order. -/
theorem InOrder.settled_of_past (h : InOrder store) (hcalls : store.calls = caller :: rest)
    (hpast : pastCheck caller.phase = true) :
    Settled store caller rest ∧ isLoading caller.phase = false ∧
      caller.key ∉ store.claimedKeys := by
  obtain ⟨state, calls, loadFailed, answers⟩ := store
  obtain rfl : calls = caller :: rest := hcalls
  obtain ⟨hnotFailed, hfilled, hunclaimed⟩ := h.settled caller List.mem_cons_self hpast
  obtain ⟨hcaller, hrest⟩ := List.forall_mem_cons.mp hfilled
  exact ⟨⟨hrest, hnotFailed, fun c hc hother =>
    ((List.pairwise_cons.mp h.distinct).1 c hc hpast hother).symm⟩, hcaller, hunclaimed⟩

/-- A call that goes on, in a step that is in order. -/
theorem InOrder.goesOn (h : InOrder store) (hcalls : store.calls = caller :: rest)
    {phase : ClaimPhase}
    (hstep : CallStep caller.targetId caller.scheduledFor store.state caller.phase state
      (.inl phase))
    (horderly : caller.phase = .loaded → Settled store caller rest) :
    InOrder { store with state, calls := { caller with phase } :: rest } := by
  obtain ⟨state', calls, loadFailed, answers⟩ := store
  obtain rfl : calls = caller :: rest := hcalls
  obtain ⟨targetId, scheduledFor, phase'⟩ := caller
  have hbegun := h.begun (.inl ⟨_, List.mem_cons_self⟩)
  have hloader := h.loader
  have honly := List.pairwise_cons.mp h.oneLoader
  have hdistinct := List.pairwise_cons.mp h.distinct
  have hsettled := List.forall_mem_cons.mp h.settled
  have hwritten := (List.forall_mem_cons.mp h.written).2
  have hsnapshot := List.forall_mem_cons.mp h.snapshot
  -- while the claims are being loaded, nobody is past the check
  have hnoPast : isLoading phase' = true → ∀ c ∈ rest, pastCheck c.phase = true → False := by
    intro hloading c hc hpast
    have hfilled := (hsettled.2 c hc hpast).2.1 _ List.mem_cons_self
    rw [hloading] at hfilled
    cases hfilled
  cases hstep with
  | reads =>
      exact {
        nodup := h.nodup
        honest := h.honest
        kept := h.kept
        known := fun _ hfilled => by cases hfilled _ List.mem_cons_self
        snapshot := List.forall_mem_cons.mpr ⟨by rintro _ ⟨rfl⟩; exact h.kept, hsnapshot.2⟩
        written := List.forall_mem_cons.mpr ⟨nofun, hwritten⟩
        begun := fun _ => hbegun
        loader := fun _ => hloader ⟨_, List.mem_cons_self, rfl⟩
        oneLoader := List.pairwise_cons.mpr ⟨honly.1, honly.2⟩
        settled := List.forall_mem_cons.mpr ⟨nofun, fun c hc hpast => (hnoPast rfl c hc hpast).elim⟩
        distinct := List.pairwise_cons.mpr ⟨fun _ _ => nofun, hdistinct.2⟩ }
  | loads hlines =>
      obtain ⟨hbroken, -, hkeys⟩ := loadLines_ok hlines
      have hrest : ∀ c ∈ rest, isLoading c.phase = false := fun c hc => honly.1 c hc rfl
      exact {
        nodup := h.nodup
        honest := h.honest
        kept := h.kept
        known := fun _ _ _ key hkey =>
          hkeys ((hsnapshot.1 _ rfl key hkey).resolve_right hbroken)
        snapshot := List.forall_mem_cons.mpr ⟨nofun, hsnapshot.2⟩
        written := List.forall_mem_cons.mpr ⟨nofun, hwritten⟩
        begun := fun _ => hbegun
        loader := fun _ => hloader ⟨_, List.mem_cons_self, rfl⟩
        oneLoader := List.pairwise_cons.mpr ⟨fun _ _ => nofun, honly.2⟩
        settled := List.forall_mem_cons.mpr ⟨nofun, fun c hc hpast => (hnoPast rfl c hc hpast).elim⟩
        distinct := List.pairwise_cons.mpr ⟨fun _ _ => nofun, hdistinct.2⟩ }
  | checks hnew =>
      have hsettled := horderly rfl
      refine h.past rfl rfl hsettled rfl (fun hkey => hnew ?_) (fun _ hkey => hkey) nofun
      exact h.known hbegun (List.forall_mem_cons.mpr ⟨rfl, hsettled.filled⟩) hsettled.notFailed _ hkey
  | ensures =>
      obtain ⟨hsettled, hcaller, hunclaimed⟩ := h.settled_of_past rfl rfl
      exact h.past rfl rfl hsettled hcaller hunclaimed (fun _ hkey => hkey) nofun
  | appends =>
      obtain ⟨hsettled, hcaller, hunclaimed⟩ := h.settled_of_past rfl rfl
      exact h.past rfl rfl hsettled hcaller hunclaimed (fun _ => kept_write _ _)
        fun _ => written_append _ _

theorem claimedKeys_cons (answer : String × ClaimAnswer × Bool)
    {state : ClaimState} {calls : List ClaimCall} {loadFailed : Bool}
    {answers : List (String × ClaimAnswer × Bool)} :
    claimedKeys ⟨state, calls, loadFailed, answer :: answers⟩ =
      (if answer.2.1 = .claimed then [answer.1] else []) ++
        claimedKeys ⟨state, calls, loadFailed, answers⟩ := by
  rw [claimedKeys, List.filterMap_cons]
  split <;> simp_all [claimedKeys]

/-- A call that ends without a claim. -/
theorem InOrder.ends (h : InOrder store) (hcalls : store.calls = caller :: rest)
    {answer : ClaimAnswer} (hanswer : answer ≠ .claimed) {file : ClaimFile} {claims : List String}
    {loadFailed : Bool}
    (hkept : ∀ key, key ∈ ClaimFile.keys store.state.file.lines ∨ .broken ∈ store.state.file.lines →
      key ∈ ClaimFile.keys file.lines ∨ .broken ∈ file.lines)
    (hfailed : isLoading caller.phase = true ∧ loadFailed = true ∨
      isLoading caller.phase = false ∧ loadFailed = store.loadFailed ∧
        claims = store.state.claims) :
    InOrder {
      state := { store.state with file, claims }, calls := rest, loadFailed
      answers := (caller.key, answer, store.loadFailed) :: store.answers } := by
  obtain ⟨state, calls, loadFailed', answers⟩ := store
  obtain rfl : calls = caller :: rest := hcalls
  have hkeys : claimedKeys {
      state := { state with file, claims }, calls := rest, loadFailed
      answers := (caller.key, answer, loadFailed') :: answers } =
      claimedKeys ⟨state, caller :: rest, loadFailed', answers⟩ := by
    rw [claimedKeys_cons, if_neg hanswer]
    rfl
  have hbegun := h.begun (.inl ⟨_, List.mem_cons_self⟩)
  have honly := List.pairwise_cons.mp h.oneLoader
  have hsettled := List.forall_mem_cons.mp h.settled
  exact {
    nodup := hkeys ▸ h.nodup
    honest := fun key failed hmem => by
      rcases List.mem_cons.mp hmem with heq | hmem
      · exact absurd (congrArg (·.2.1) heq).symm hanswer
      · exact h.honest key failed hmem
    kept := fun key hkey => hkept key (h.kept key (hkeys ▸ hkey))
    known := fun _ hfilled hnotFailed key hkey => by
      rcases hfailed with ⟨-, rfl⟩ | ⟨hcaller, rfl, rfl⟩
      · cases hnotFailed
      · exact h.known hbegun (List.forall_mem_cons.mpr ⟨hcaller, hfilled⟩) hnotFailed key
          (hkeys ▸ hkey)
    snapshot := fun c hc lines hread key hkey =>
      (List.forall_mem_cons.mp h.snapshot).2 c hc lines hread key (hkeys ▸ hkey)
    written := fun c hc happended =>
      hkept c.key ((List.forall_mem_cons.mp h.written).2 c hc happended)
    begun := fun _ => hbegun
    loader := by
      rintro ⟨c, hc, hloading⟩
      rcases hfailed with ⟨hcaller, -⟩ | ⟨-, rfl, -⟩
      · rw [honly.1 c hc hcaller] at hloading
        cases hloading
      · exact h.loader ⟨c, List.mem_cons_of_mem _ hc, hloading⟩
    oneLoader := honly.2
    settled := fun c hc hpast => by
      obtain ⟨hnotFailed, hfilled, hunclaimed⟩ := hsettled.2 c hc hpast
      obtain ⟨hcaller, hrest⟩ := List.forall_mem_cons.mp hfilled
      rcases hfailed with ⟨hloading, -⟩ | ⟨-, rfl, -⟩
      · rw [hcaller] at hloading
        cases hloading
      · exact ⟨hnotFailed, hrest, hkeys ▸ hunclaimed⟩
    distinct := (List.pairwise_cons.mp h.distinct).2 }

/-- A call that ends with a claim. -/
theorem InOrder.claims (h : InOrder store) (hcalls : store.calls = caller :: rest)
    (happended : caller.phase = .appended) :
    InOrder {
      state := { store.state with claims := addNew store.state.claims caller.key }, calls := rest
      loadFailed := store.loadFailed
      answers := (caller.key, .claimed, store.loadFailed) :: store.answers } := by
  obtain ⟨hsettled, hcaller, hunclaimed⟩ := h.settled_of_past hcalls (by rw [happended]; rfl)
  obtain ⟨state, calls, loadFailed, answers⟩ := store
  obtain rfl : calls = caller :: rest := hcalls
  have hkeys : claimedKeys {
      state := { state with claims := addNew state.claims caller.key }, calls := rest, loadFailed
      answers := (caller.key, .claimed, loadFailed) :: answers } =
      caller.key :: claimedKeys ⟨state, caller :: rest, loadFailed, answers⟩ := by
    rw [claimedKeys_cons, if_pos rfl]
    rfl
  have hbegun := h.begun (.inl ⟨_, List.mem_cons_self⟩)
  have hfilled : ∀ c ∈ caller :: rest, isLoading c.phase = false :=
    List.forall_mem_cons.mpr ⟨hcaller, hsettled.filled⟩
  have hnoRead : ∀ c ∈ rest, ∀ lines, c.phase ≠ .read lines := by
    intro c hc lines hread
    have := hsettled.filled c hc
    rw [hread] at this
    cases this
  exact {
    nodup := hkeys ▸ List.nodup_cons.mpr ⟨hunclaimed, h.nodup⟩
    honest := fun key failed hmem => by
      rcases List.mem_cons.mp hmem with heq | hmem
      · have hfailed : failed = loadFailed := congrArg (·.2.2) heq
        exact hfailed.trans hsettled.notFailed
      · exact h.honest key failed hmem
    kept := by
      rw [hkeys]
      exact List.forall_mem_cons.mpr ⟨h.written caller List.mem_cons_self happended, h.kept⟩
    known := fun _ _ hnotFailed => by
      rw [hkeys]
      exact List.forall_mem_cons.mpr ⟨mem_addNew.mpr (.inr rfl), fun key hkey =>
        mem_addNew.mpr (.inl (h.known hbegun hfilled hnotFailed key hkey))⟩
    snapshot := fun c hc lines hread => absurd hread (hnoRead c hc lines)
    written := (List.forall_mem_cons.mp h.written).2
    begun := fun _ => hbegun
    loader := fun _ => hsettled.notFailed
    oneLoader := (List.pairwise_cons.mp h.oneLoader).2
    settled := fun c hc hpast => by
      refine ⟨hsettled.notFailed, hsettled.filled, ?_⟩
      rw [hkeys, List.mem_cons, not_or]
      exact ⟨hsettled.alone c hc hpast,
        (h.settled c (List.mem_cons_of_mem _ hc) hpast).2.2⟩
    distinct := (List.pairwise_cons.mp h.distinct).2 }

/-- A call that is answered. -/
theorem InOrder.answers (h : InOrder store) (hcalls : store.calls = caller :: rest)
    {answer : ClaimAnswer}
    (hstep : CallStep caller.targetId caller.scheduledFor store.state caller.phase state
      (.inr answer)) :
    InOrder {
      state, calls := rest
      loadFailed := store.loadFailed || (isLoading caller.phase && answer = .failed)
      answers := (caller.key, answer, store.loadFailed) :: store.answers } := by
  obtain ⟨targetId, scheduledFor, phase⟩ := caller
  cases hstep with
  | readFails => exact h.ends hcalls (by simp) (fun _ hkey => hkey) (.inl ⟨rfl, by simp [isLoading]⟩)
  | loadFails => exact h.ends hcalls (by simp) (fun _ hkey => hkey) (.inl ⟨rfl, by simp [isLoading]⟩)
  | finds =>
      exact h.ends hcalls (by simp) (fun _ hkey => hkey) (.inr ⟨rfl, by simp [isLoading], rfl⟩)
  | ensureFails =>
      exact h.ends hcalls (by simp) (fun _ hkey => hkey) (.inr ⟨rfl, by simp [isLoading], rfl⟩)
  | appendFails hfails =>
      exact h.ends hcalls (by simp) (fun _ => kept_appendFails hfails)
        (.inr ⟨rfl, by simp [isLoading], rfl⟩)
  | adds =>
      have hsame : (store.loadFailed || (isLoading .appended && ClaimAnswer.claimed = .failed)) =
          store.loadFailed := by simp [isLoading]
      rw [hsame]
      exact h.claims hcalls rfl

theorem InOrder.restart (h : InOrder store) :
    InOrder { store with
      state := { file := store.state.file, claims := [], isLoaded := false }
      calls := [], loadFailed := false } where
  nodup := h.nodup
  honest := h.honest
  kept := h.kept
  known hloaded := by cases hloaded
  snapshot _ hc := by cases hc
  written _ hc := by cases hc
  begun hbegun := by
    rcases hbegun with ⟨_, hc⟩ | hfailed
    · cases hc
    · cases hfailed
  loader := fun ⟨_, hc, _⟩ => by cases hc
  oneLoader := List.Pairwise.nil
  settled _ hc := by cases hc
  distinct := List.Pairwise.nil

/-- **The step.**  What holds in order is kept by every step that is in order. -/
theorem InOrder.step {store' : ClaimStore} (h : InOrder store) (hstep : StoreStep store store')
    (horderly : Orderly store store') : InOrder store' := by
  cases hstep with
  | call targetId scheduledFor =>
      exact (h.call targetId scheduledFor).perm (List.perm_append_singleton _ _).symm
  | @goesOn before call after state phase hcalls hcall =>
      refine ((h.perm (hcalls ▸ perm_focus call)).goesOn rfl hcall fun hloaded => ?_).perm
        (perm_focus _).symm
      -- the only way on from here is the check
      obtain ⟨targetId, scheduledFor, phase'⟩ := call
      obtain rfl : phase' = .loaded := hloaded
      cases hcall with
      | checks hnew =>
          obtain ⟨hfilled, hnotFailed, halone⟩ :=
            horderly _ _ ⟨before, after, hcalls, rfl, rfl, hnew, rfl⟩
          exact ⟨hfilled, hnotFailed, halone⟩
  | @answers before call after state answer hcalls hcall =>
      exact (h.perm (hcalls ▸ perm_focus call)).answers rfl hcall
  | restart => exact h.restart

end Steps

/-! ## Claims in order -/

theorem inOrder_of_run {file : ClaimFile} {store : ClaimStore}
    (h : StoreRun Orderly (opened file) store) : InOrder store := by
  induction h with
  | start => exact inOrder_opened file
  | step _ hstep horderly ih => exact ih.step hstep horderly

/-- **A key is claimed once.**  In a run in which every call that finds its key to
be new does so in a store that has been filled, and while no other call is about
to add that key, no key is answered `claimed` twice, and no answer `claimed` comes
from a store whose load has failed. -/
theorem orderly_claims_once {file : ClaimFile} {store : ClaimStore}
    (h : StoreRun Orderly (opened file) store) :
    store.claimedKeys.Nodup ∧
      ∀ key failed, (key, .claimed, failed) ∈ store.answers → failed = false :=
  ⟨(inOrder_of_run h).nodup, (inOrder_of_run h).honest⟩

/-- With one call at a time, and no failure of the load, a run is in order. -/
theorem orderly_of_one {store : ClaimStore} (hcalls : store.calls.length ≤ 1)
    (hnotFailed : store.loadFailed = false) (store' : ClaimStore) : Orderly store store' := by
  rintro call others ⟨before, after, hstore, rfl, -⟩
  have hnone : before ++ after = [] := by
    rw [hstore] at hcalls
    simp only [List.length_append, List.length_cons] at hcalls
    exact List.eq_nil_of_length_eq_zero (by rw [List.length_append]; omega)
  rw [hnone]
  exact ⟨List.forall_mem_nil _, hnotFailed, List.forall_mem_nil _⟩

/-- Once the set is filled, a run of calls for different keys is in order. -/
theorem orderly_of_distinct {store : ClaimStore}
    (hfilled : ∀ call ∈ store.calls, isLoading call.phase = false) (hnotFailed : store.loadFailed = false)
    (hdistinct : store.calls.Pairwise fun a b => a.key ≠ b.key) (store' : ClaimStore) :
    Orderly store store' := by
  rintro call others ⟨before, after, hstore, rfl, -⟩
  rw [hstore] at hfilled
  have hapart : ((call :: (before ++ after)).Pairwise fun a b => a.key ≠ b.key) :=
    ((perm_focus call).pairwise_iff fun hab => hab.symm).mp (hstore ▸ hdistinct)
  refine ⟨fun other hother => hfilled other ?_, hnotFailed, fun other hother _ => ?_⟩
  · exact (perm_focus call).mem_iff.mpr (List.mem_cons_of_mem _ hother)
  · exact ((List.pairwise_cons.mp hapart).1 other hother).symm

/-- A file with one claim. -/
def oneClaim : ClaimFile := ⟨[.claim "docs" "11:00"], false⟩

/-- Two calls for new keys that overlap claim them, and a call for the key on file gets a duplicate. -/
theorem orderly_claims_once_overlapping :
    ∃ store, StoreRun Orderly (opened oneClaim) store ∧
      store.answers = [(claimKey "mail" "12:00", .claimed, false),
        (claimKey "docs" "12:00", .claimed, false), (claimKey "docs" "11:00", .duplicate, false)] ∧
      store.claimedKeys.Nodup := by
  have hcall : StoreRun Orderly (opened oneClaim) _ :=
    .step .start (.call "docs" "12:00") (orderly_of_one (by decide) rfl _)
  have hread := StoreRun.step hcall (@StoreStep.goesOn _ [] _ [] _ _ rfl .reads)
    (orderly_of_one (by decide) rfl _)
  have hload := StoreRun.step hread (@StoreStep.goesOn _ [] _ [] _ _ rfl (.loads rfl))
    (orderly_of_one (by decide) rfl _)
  have hmail := StoreRun.step hload (.call "mail" "12:00")
    (orderly_of_distinct (by decide) rfl (by decide) _)
  have hagain := StoreRun.step hmail (.call "docs" "11:00")
    (orderly_of_distinct (by decide) rfl (by decide) _)
  -- all three calls are under way now
  have hcheck := StoreRun.step hagain (@StoreStep.goesOn _ [] _ [_, _] _ _ rfl (.checks (by decide)))
    (orderly_of_distinct (by decide) rfl (by decide) _)
  have hcheck' := StoreRun.step hcheck (@StoreStep.goesOn _ [_] _ [_] _ _ rfl (.checks (by decide)))
    (orderly_of_distinct (by decide) rfl (by decide) _)
  have hduplicate := StoreRun.step hcheck' (@StoreStep.answers _ [_, _] _ [] _ _ rfl (.finds (by decide)))
    (orderly_of_distinct (by decide) rfl (by decide) _)
  have hensure := StoreRun.step hduplicate (@StoreStep.goesOn _ [] _ [_] _ _ rfl .ensures)
    (orderly_of_distinct (by decide) rfl (by decide) _)
  have hensure' := StoreRun.step hensure (@StoreStep.goesOn _ [_] _ [] _ _ rfl .ensures)
    (orderly_of_distinct (by decide) rfl (by decide) _)
  have happend := StoreRun.step hensure' (@StoreStep.goesOn _ [_] _ [] _ _ rfl .appends)
    (orderly_of_distinct (by decide) rfl (by decide) _)
  have happend' := StoreRun.step happend (@StoreStep.goesOn _ [] _ [_] _ _ rfl .appends)
    (orderly_of_distinct (by decide) rfl (by decide) _)
  have hclaim := StoreRun.step happend' (@StoreStep.answers _ [] _ [_] _ _ rfl .adds)
    (orderly_of_distinct (by decide) rfl (by decide) _)
  have hclaim' := StoreRun.step hclaim (@StoreStep.answers _ [] _ [] _ _ rfl .adds)
    (orderly_of_distinct (by decide) rfl (by decide) _)
  exact ⟨_, hclaim', rfl, (orderly_claims_once hclaim').1⟩

/-- Over a file that is there, two calls that check their key one after the other claim it twice,
and a store whose first call could not read the file claims the key that is on file. -/
theorem claims_twice :
    (∃ store, StoreRun (fun _ _ => True) (opened oneClaim) store ∧ ¬ store.claimedKeys.Nodup) ∧
      ∃ store, StoreRun (fun _ _ => True) (opened oneClaim) store ∧
        claimKey "docs" "11:00" ∈ ClaimFile.keys oneClaim.lines ∧
        (claimKey "docs" "11:00", .claimed, true) ∈ store.answers := by
  constructor
  · have hcall : StoreRun (fun _ _ => True) (opened oneClaim) _ :=
      .step .start (.call "docs" "12:00") trivial
    have hread := hcall.step (@StoreStep.goesOn _ [] _ [] _ _ rfl .reads) trivial
    have hload := hread.step (@StoreStep.goesOn _ [] _ [] _ _ rfl (.loads rfl)) trivial
    have hother := hload.step (.call "docs" "12:00") trivial
    have hcheck := hother.step (@StoreStep.goesOn _ [] _ [_] _ _ rfl (.checks (by decide))) trivial
    have hcheck' := hcheck.step (@StoreStep.goesOn _ [_] _ [] _ _ rfl (.checks (by decide))) trivial
    have hensure := hcheck'.step (@StoreStep.goesOn _ [] _ [_] _ _ rfl .ensures) trivial
    have hensure' := hensure.step (@StoreStep.goesOn _ [_] _ [] _ _ rfl .ensures) trivial
    have happend := hensure'.step (@StoreStep.goesOn _ [] _ [_] _ _ rfl .appends) trivial
    have happend' := happend.step (@StoreStep.goesOn _ [_] _ [] _ _ rfl .appends) trivial
    have hclaim := happend'.step (@StoreStep.answers _ [] _ [_] _ _ rfl .adds) trivial
    have hclaim' := hclaim.step (@StoreStep.answers _ [] _ [] _ _ rfl .adds) trivial
    exact ⟨_, hclaim', by decide⟩
  · have hcall : StoreRun (fun _ _ => True) (opened oneClaim) _ :=
      .step .start (.call "docs" "11:00") trivial
    have hfail := hcall.step (@StoreStep.answers _ [] _ [] _ _ rfl .readFails) trivial
    have hother := hfail.step (.call "docs" "11:00") trivial
    have hcheck := hother.step (@StoreStep.goesOn _ [] _ [] _ _ rfl (.checks (by decide))) trivial
    have hensure := hcheck.step (@StoreStep.goesOn _ [] _ [] _ _ rfl .ensures) trivial
    have happend := hensure.step (@StoreStep.goesOn _ [] _ [] _ _ rfl .appends) trivial
    have hclaim := happend.step (@StoreStep.answers _ [] _ [] _ _ rfl .adds) trivial
    exact ⟨_, hclaim, by decide, List.mem_cons_self⟩

end AtlasManager.Backup
