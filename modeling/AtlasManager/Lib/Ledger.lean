import AtlasManager.Lib.DocStore

/-!
# AtlasManager.Lib.Ledger

Jobs that are handed over at most once.  A job is claimed before it is handed
over; a cursor moves on behind the jobs, and the claims it has passed are dropped.

* `Once` -- the invariant, and what keeps it;
* `claimIn`, `pruneIn`, `advanceIn` -- claims and cursor in files;
* `claimIn_spec`, `pruneIn_spec`, `advanceIn_spec` -- what they do, wherever they stop;
* `ledgerStep` -- a system of the two files and an outside world;
* `inClaimFile_spec`, `inCursorFile_spec` -- the files as parts of it.
-/

namespace AtlasManager.Lib

/-! ## The invariant -/

section Once

variable {α κ : Type*} [LinearOrder κ] {time : α → κ} {done claims claims' : List α}
  {cursor : Option κ} {x : α}

/-- Every job has been handed over once, and stays claimed until the cursor has passed it. -/
structure Once (time : α → κ) (done claims : List α) (cursor : Option κ) : Prop where
  nodup : done.Nodup
  recorded : ∀ x ∈ done, x ∈ claims ∨ ∃ c ∈ cursor, time x ≤ c

namespace Once

theorem empty : Once time [] claims cursor := ⟨List.nodup_nil, fun _ h => absurd h List.not_mem_nil⟩

/-- Claims may be dropped that the cursor has passed, and others added. -/
theorem prune (h : Once time done claims cursor)
    (hkeep : ∀ x ∈ claims, (∀ c ∈ cursor, c < time x) → x ∈ claims') :
    Once time done claims' cursor := by
  refine ⟨h.nodup, fun x hx => ?_⟩
  by_cases hpassed : ∃ c ∈ cursor, time x ≤ c
  · exact Or.inr hpassed
  · have hclaimed := (h.recorded x hx).resolve_right hpassed
    exact Or.inl (hkeep x hclaimed fun c hc => lt_of_not_ge fun hle => hpassed ⟨c, hc, hle⟩)

theorem claim (h : Once time done claims cursor) (hsubset : claims ⊆ claims') :
    Once time done claims' cursor :=
  h.prune fun _ hx _ => hsubset hx

theorem advance (h : Once time done claims cursor) {next : κ} (hnext : ∀ c ∈ cursor, c ≤ next) :
    Once time done claims (some next) := by
  refine ⟨h.nodup, fun x hx => (h.recorded x hx).imp_right fun ⟨c, hc, hle⟩ => ?_⟩
  exact ⟨next, rfl, hle.trans (hnext c hc)⟩

/-- A job ahead of the cursor that is not claimed has not been handed over. -/
theorem not_mem (h : Once time done claims cursor) (hahead : ∀ c ∈ cursor, c < time x)
    (hnew : x ∉ claims) : x ∉ done := by
  intro hx
  rcases h.recorded x hx with hclaimed | ⟨c, hc, hle⟩
  · exact hnew hclaimed
  · exact absurd (hahead c hc) (not_lt.mpr hle)

theorem handOver (h : Once time done claims cursor) (hnew : x ∉ done) (hclaimed : x ∈ claims) :
    Once time (x :: done) claims cursor := by
  refine ⟨List.nodup_cons.mpr ⟨hnew, h.nodup⟩, fun y hy => ?_⟩
  rcases List.mem_cons.mp hy with rfl | hy
  · exact Or.inl hclaimed
  · exact h.recorded y hy

end Once

end Once

/-! ## The files -/

section Files

variable {α κ ρ ε : Type} (error : FileStoreErrorCode → ε)

/-- Add a job to the claims, unless it is there. -/
def claimIn [DecidableEq α] (check : List α → Bool) (sort : List α → List α) (claimed duplicate : ρ) (x : α) :
    Prog (FileCall (List α)) FileAnswer ε ρ := do
  let claims := (← readDocument error check).getD []
  if x ∈ claims then return duplicate
  else
    writeDocument error (sort (claims ++ [x]))
    return claimed

/-- Keep some of the claims. -/
def pruneIn (check : List α → Bool) (keep : α → Bool) (pruned unchanged : ρ) :
    Prog (FileCall (List α)) FileAnswer ε ρ := do
  let claims := (← readDocument error check).getD []
  if (claims.filter keep).length = claims.length then return unchanged
  else
    writeDocument error (claims.filter keep)
    return pruned

/-- Replace the expected cursor by one that it precedes. -/
def advanceIn [DecidableEq κ] (precedes : κ → κ → Bool) (nonForward : ε) (advanced : ρ)
    (conflict : Option κ → ρ) (expected : Option κ) (next : κ) :
    Prog (FileCall κ) FileAnswer ε ρ := do
  let current ← readDocument error fun _ => true
  if expected ≠ current then return conflict current
  else if current.any fun current => !precedes current next then .throw nonForward
  else
    writeDocument error next
    return advanced

end Files

/-- The list that a file holds. -/
def listIn {α : Type} : Option (Content (List α)) → List α
  | some (.document l) => l
  | _ => []

/-- The document that a file holds. -/
def documentIn {D : Type} : Option (Content D) → Option D
  | some (.document d) => some d
  | _ => none

@[simp] theorem documentIn_document {D : Type} (d : D) :
    documentIn (some (.document d)) = some d := rfl

theorem documentIn_of_readsAs {D : Type} {check : D → Bool} {file : Option (Content D)}
    {d : Option D} (h : readsAs check file d) : documentIn file = d := by
  cases d with
  | none =>
      obtain rfl : file = none := h
      rfl
  | some d =>
      obtain ⟨rfl, -⟩ := h
      rfl

theorem listIn_of_readsAs {α : Type} {check : List α → Bool} {file : Option (Content (List α))}
    {d : Option (List α)} (h : readsAs check file d) : listIn file = d.getD [] := by
  cases d with
  | none =>
      obtain rfl : file = none := h
      rfl
  | some l =>
      obtain ⟨rfl, -⟩ := h
      rfl

section Specs

variable {α κ ρ ε : Type} {error : FileStoreErrorCode → ε} {check : List α → Bool}

/-- A claim that is granted was not there before and is there now; none is lost. -/
theorem claimIn_spec [DecidableEq α] {sort : List α → List α} {claimed duplicate : ρ} {x : α}
    {state : FileState (List α)} {J : FileState (List α) → Prop}
    {Q : Except ε ρ → FileState (List α) → Prop} (hsort : ∀ l, (sort l).Perm l)
    (hJ : ∀ s : FileState (List α), listIn state.file ⊆ listIn s.file → J s)
    (hclaimed : ∀ s : FileState (List α), listIn state.file ⊆ listIn s.file →
      x ∉ listIn state.file → x ∈ listIn s.file → Q (.ok claimed) s)
    (hduplicate : Q (.ok duplicate) state)
    (herr : ∀ e (s : FileState (List α)), listIn state.file ⊆ listIn s.file → Q (.error e) s) :
    Prog.Spec fileStep J (claimIn error check sort claimed duplicate x) Q state := by
  rw [claimIn, Prog.spec_bind]
  refine readDocument_spec (hJ _ (List.Subset.refl _)) ?_ fun e => herr e _ (List.Subset.refl _)
  intro d hd
  dsimp only
  rw [← listIn_of_readsAs hd]
  split
  · exact hduplicate
  next hnew =>
  have hwritten : ∀ s : FileState (List α),
      s.file = some (.document (sort (listIn state.file ++ [x]))) →
      ∀ y, y ∈ listIn s.file ↔ y ∈ listIn state.file ∨ y = x := by
    intro s hs y
    rw [hs, listIn, (hsort _).mem_iff, List.mem_append, List.mem_singleton]
  have hsame : ∀ s : FileState (List α), s.file = state.file →
      listIn state.file ⊆ listIn s.file := by
    intro s hs
    rw [hs]
    exact List.Subset.refl _
  rw [Prog.spec_bind]
  refine writeDocument_spec ?_ ?_ fun e s hs => herr e s (hsame s hs)
  · rintro s (hs | hs)
    · exact hJ s (hsame s hs)
    · exact hJ s fun y hy => (hwritten s hs y).mpr (Or.inl hy)
  · exact fun s hs => hclaimed s (fun y hy => (hwritten s hs y).mpr (Or.inl hy)) hnew
      ((hwritten s hs x).mpr (Or.inr rfl))

/-- Pruning drops no claim that is to be kept. -/
theorem pruneIn_spec {keep : α → Bool} {pruned unchanged : ρ} {state : FileState (List α)}
    {J : FileState (List α) → Prop}
    (hJ : ∀ s : FileState (List α),
      (∀ y ∈ listIn state.file, keep y = true → y ∈ listIn s.file) → J s) :
    Prog.Spec fileStep J (pruneIn error check keep pruned unchanged) (fun _ => J) state := by
  have hsame : ∀ s : FileState (List α), s.file = state.file → J s := by
    intro s hs
    refine hJ s fun y hy _ => ?_
    rwa [hs]
  rw [pruneIn, Prog.spec_bind]
  refine readDocument_spec (hsame _ rfl) ?_ fun e => hsame _ rfl
  intro d hd
  dsimp only
  rw [← listIn_of_readsAs hd]
  split
  · exact hsame _ rfl
  have hkept : ∀ s : FileState (List α),
      s.file = some (.document ((listIn state.file).filter keep)) → J s := by
    intro s hs
    refine hJ s fun y hy hkeep => ?_
    rw [hs, listIn]
    exact List.mem_filter.mpr ⟨hy, hkeep⟩
  rw [Prog.spec_bind]
  refine writeDocument_spec ?_ (fun s hs => hkept s hs) fun e s hs => hsame s hs
  rintro s (hs | hs)
  · exact hsame s hs
  · exact hkept s hs

/-- A cursor is replaced only when it is the expected one and precedes the next. -/
theorem advanceIn_spec [DecidableEq κ] {precedes : κ → κ → Bool} {nonForward : ε} {advanced : ρ}
    {conflict : Option κ → ρ} {expected : Option κ} {next : κ} {state : FileState κ}
    {J : FileState κ → Prop} {Q : Except ε ρ → FileState κ → Prop}
    (hsame : ∀ s : FileState κ, s.file = state.file → J s)
    (hnext : expected = documentIn state.file → (∀ c ∈ expected, precedes c next = true) →
      ∀ s : FileState κ, s.file = some (.document next) → J s ∧ Q (.ok advanced) s)
    (hconflict : ∀ current, Q (.ok (conflict current)) state)
    (herr : ∀ e (s : FileState κ), s.file = state.file → Q (.error e) s) :
    Prog.Spec fileStep J (advanceIn error precedes nonForward advanced conflict expected next) Q
      state := by
  rw [advanceIn, Prog.spec_bind]
  refine readDocument_spec (hsame _ rfl) ?_ fun e => herr _ _ rfl
  intro current hcurrent
  dsimp only
  split
  · exact hconflict _
  next hexpected =>
  obtain rfl : expected = current := not_not.mp hexpected
  split
  · exact herr _ _ rfl
  next hforward =>
  have hnext := hnext (documentIn_of_readsAs hcurrent).symm (by
    rintro c rfl
    simpa using hforward)
  rw [Prog.spec_bind]
  refine writeDocument_spec ?_ (fun s hs => (hnext s hs).2) fun e s hs => herr e s hs
  rintro s (hs | hs)
  · exact hsame s hs
  · exact (hnext s hs).1

end Specs

/-! ## The system -/

/-- The calls of a system that has the two files and an outside world. -/
inductive LedgerCall (C α κ : Type) where
  | port (call : C)
  | claimFile (call : FileCall (List α))
  | cursorFile (call : FileCall κ)

abbrev LedgerAnswer {C α κ : Type} (R : C → Type) : LedgerCall C α κ → Type
  | .port call => R call
  | .claimFile call => FileAnswer call
  | .cursorFile call => FileAnswer call

/-- The files, and what has been said to the outside world. -/
structure LedgerWorld (C : Type) (R : C → Type) (ε α κ : Type) where
  claims : FileState (List α)
  cursor : FileState κ
  log : Prog.Log C R ε

section System

variable {C : Type} {R : C → Type} {ε α κ β : Type}

/-- The outside world gives any of its possible answers. -/
def ledgerStep (A : (c : C) → Except ε (R c) → Prop) :
    Prog.Handler (LedgerCall C α κ) (LedgerAnswer R) ε (LedgerWorld C R ε α κ)
  | world, .port call, answer, world' =>
    A call answer ∧ world' = { world with log := ⟨call, answer⟩ :: world.log }
  | world, .claimFile call, answer, world' =>
    ∃ state, fileStep world.claims call answer state ∧ world' = { world with claims := state }
  | world, .cursorFile call, answer, world' =>
    ∃ state, fileStep world.cursor call answer state ∧ world' = { world with cursor := state }

def inClaimFile (program : Prog (FileCall (List α)) FileAnswer ε β) :
    Prog (LedgerCall C α κ) (LedgerAnswer R) ε β :=
  program.interpret fun call => Prog.perform (.claimFile call : LedgerCall C α κ)

def inCursorFile (program : Prog (FileCall κ) FileAnswer ε β) :
    Prog (LedgerCall C α κ) (LedgerAnswer R) ε β :=
  program.interpret fun call => Prog.perform (.cursorFile call : LedgerCall C α κ)

def claimPart : Prog.Component (LedgerWorld C R ε α κ) (FileState (List α)) where
  get world := world.claims
  put world state := { world with claims := state }
  get_put _ _ := rfl
  put_get _ := rfl
  put_put _ _ _ := rfl

def cursorPart : Prog.Component (LedgerWorld C R ε α κ) (FileState κ) where
  get world := world.cursor
  put world state := { world with cursor := state }
  get_put _ _ := rfl
  put_get _ := rfl
  put_put _ _ _ := rfl

variable {A : (c : C) → Except ε (R c) → Prop} {world : LedgerWorld C R ε α κ}
  {J : LedgerWorld C R ε α κ → Prop} {Q : Except ε β → LedgerWorld C R ε α κ → Prop}

theorem spec_port {call : C} {Q : Except ε (R call) → LedgerWorld C R ε α κ → Prop}
    (h : ∀ answer, A call answer → J { world with log := ⟨call, answer⟩ :: world.log } ∧
      Q answer { world with log := ⟨call, answer⟩ :: world.log }) :
    Prog.Spec (ledgerStep A) J (Prog.perform (.port call : LedgerCall C α κ)) Q world := by
  rw [Prog.spec_perform]
  rintro answer _ ⟨hanswer, rfl⟩
  exact h answer hanswer

theorem inClaimFile_spec {program : Prog (FileCall (List α)) FileAnswer ε β}
    (h : Prog.Spec fileStep (fun state => J { world with claims := state }) program
      (fun outcome state => Q outcome { world with claims := state }) world.claims) :
    Prog.Spec (ledgerStep A) J (inClaimFile program) Q world := by
  refine (Prog.Spec.component claimPart ?_ h).mono ?_ ?_
  · intro call world J Q h
    rw [Prog.spec_perform]
    rintro answer _ ⟨state, hstate, rfl⟩
    exact h answer state hstate
  · rintro _ ⟨state, rfl, h⟩
    exact h
  · rintro outcome _ ⟨state, rfl, h⟩
    exact h

theorem inCursorFile_spec {program : Prog (FileCall κ) FileAnswer ε β}
    (h : Prog.Spec fileStep (fun state => J { world with cursor := state }) program
      (fun outcome state => Q outcome { world with cursor := state }) world.cursor) :
    Prog.Spec (ledgerStep A) J (inCursorFile program) Q world := by
  refine (Prog.Spec.component cursorPart ?_ h).mono ?_ ?_
  · intro call world J Q h
    rw [Prog.spec_perform]
    rintro answer _ ⟨state, hstate, rfl⟩
    exact h answer state hstate
  · rintro _ ⟨state, rfl, h⟩
    exact h
  · rintro outcome _ ⟨state, rfl, h⟩
    exact h

/-- The system whose files work, with an outside world that answers by a function. -/
def LedgerWorld.answering (answer : (c : C) → Except ε (R c)) (error : ε)
    (world : LedgerWorld C R ε α κ) :
    (call : LedgerCall C α κ) → Except ε (LedgerAnswer R call) × LedgerWorld C R ε α κ
  | .port call => (answer call, { world with log := ⟨call, answer call⟩ :: world.log })
  | .claimFile call => ((succeed error world.claims call).1,
      { world with claims := (succeed error world.claims call).2 })
  | .cursorFile call => ((succeed error world.cursor call).1,
      { world with cursor := (succeed error world.cursor call).2 })

theorem ledgerStep_answering {answer : (c : C) → Except ε (R c)} (error : ε)
    (hanswer : ∀ c, A c (answer c)) (world : LedgerWorld C R ε α κ) (call : LedgerCall C α κ) :
    ledgerStep A world call (world.answering answer error call).1
      (world.answering answer error call).2 := by
  cases call with
  | port call => exact ⟨hanswer call, rfl⟩
  | claimFile call => exact ⟨_, fileStep_succeed error world.claims call, rfl⟩
  | cursorFile call => exact ⟨_, fileStep_succeed error world.cursor call, rfl⟩

end System

end AtlasManager.Lib
