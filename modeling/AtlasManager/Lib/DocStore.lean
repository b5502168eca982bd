import AtlasManager.Lib.Prog

/-!
# AtlasManager.Lib.DocStore

A document kept in a file that is replaced atomically: the new text goes to a
temporary file next to it, which is then renamed.

Every call of the file system may fail; a call that fails leaves the file alone.

* `fileStep` -- what the calls may do; `succeed` -- when none fails;
* `readDocument`, `writeDocument` -- the programs;
* `readDocument_spec`, `writeDocument_spec` -- wherever a write stops, the file
  holds the old document or the new one.
-/

namespace AtlasManager.Lib

/-! ## The file system -/

/-- What is in a file: the text of a document, or anything else. -/
inductive Content (D : Type) where
  | document (d : D)
  | other

inductive FileCall (D : Type) where
  | readFile
  | createTemporaryPath
  | open
  | writeFile (d : D)
  | sync
  | close
  | rename
  | unlink

/-- A file that is missing reads as `none`. -/
abbrev FileAnswer {D : Type} : FileCall D → Type
  | .readFile => Option (Content D)
  | _ => Unit

structure FileState (D : Type) where
  file : Option (Content D)
  temporary : Option (Content D)

/-- What the calls do.  A failed write may leave anything in the temporary file. -/
def fileStep {D ε : Type} : Prog.Handler (FileCall D) FileAnswer ε (FileState D)
  | state, .readFile, .ok content, state' => content = state.file ∧ state' = state
  | state, .open, .ok _, state' => state' = { state with temporary := some .other }
  | state, .writeFile d, .ok _, state' => state' = { state with temporary := some (.document d) }
  | state, .writeFile _, .error _, state' => state'.file = state.file
  | state, .rename, .ok _, state' =>
    state.temporary ≠ none ∧ state' = { file := state.temporary, temporary := none }
  | state, .unlink, .ok _, state' => state' = { state with temporary := none }
  | state, _, _, state' => state' = state

/-- A file system whose calls all succeed. -/
def succeed {D ε : Type} (error : ε) (state : FileState D) : (call : FileCall D) →
    Except ε (FileAnswer call) × FileState D
  | .readFile => (.ok state.file, state)
  | .open => (.ok (), { state with temporary := some .other })
  | .writeFile d => (.ok (), { state with temporary := some (.document d) })
  | .rename =>
    match state.temporary with
    | none => (.error error, state)
    | some content => (.ok (), { file := some content, temporary := none })
  | .unlink => (.ok (), { state with temporary := none })
  | .createTemporaryPath | .sync | .close => (.ok (), state)

theorem fileStep_succeed {D ε : Type} (error : ε) (state : FileState D) (call : FileCall D) :
    fileStep state call (succeed error state call).1 (succeed error state call).2 := by
  cases call with
  | rename =>
      obtain ⟨file, temporary⟩ := state
      cases temporary with
      | none => rfl
      | some content => exact ⟨by simp, rfl⟩
  | readFile => exact ⟨rfl, rfl⟩
  | _ => rfl

/-! ## Reading and writing -/

inductive FileStoreErrorCode where
  | invalidFile
  | readFailed
  | writeFailed
  deriving DecidableEq, Repr

section Programs

variable {D ε : Type} (error : FileStoreErrorCode → ε)

/-- The document in the file; `none` when there is no file. -/
def readDocument (check : D → Bool) : Prog (FileCall D) FileAnswer ε (Option D) := do
  let content : Except ε (Option (Content D)) ← (Prog.perform FileCall.readFile).attempt
  match content with
  | .error _ => .throw (error .readFailed)
  | .ok none => return none
  | .ok (some (.document d)) =>
    if check d then return some d else .throw (error .invalidFile)
  | .ok (some .other) => .throw (error .invalidFile)

/-- Close the temporary file, unless that has been done, and remove it, if possible. -/
def cleanUp (closed : Bool) : Prog (FileCall D) FileAnswer ε Unit := do
  let _ ← if closed then pure (.ok ()) else (Prog.perform (FileCall.close : FileCall D)).attempt
  let _ ← (Prog.perform (FileCall.unlink : FileCall D)).attempt
  return ()

def writeDocument (d : D) : Prog (FileCall D) FileAnswer ε Unit := do
  match ← (Prog.perform (FileCall.createTemporaryPath : FileCall D)).attempt with
  | .error _ => .throw (error .writeFailed)
  | .ok _ =>
    match ← (Prog.perform (FileCall.open : FileCall D)).attempt with
    | .error _ => .throw (error .writeFailed)
    | .ok _ =>
      let written ← Prog.attempt do
        let _ ← Prog.perform (FileCall.writeFile d)
        let _ ← Prog.perform (FileCall.sync : FileCall D)
        Prog.perform (FileCall.close : FileCall D)
      match written with
      | .error _ =>
        cleanUp false
        .throw (error .writeFailed)
      | .ok _ =>
        match ← (Prog.perform (FileCall.rename : FileCall D)).attempt with
        | .error _ =>
          cleanUp true
          .throw (error .writeFailed)
        | .ok _ => return ()

end Programs

/-! ## What the file holds -/

/-- May a reader of the file be answered with a document, or with nothing? -/
def readsAs {D : Type} (check : D → Bool) (file : Option (Content D)) : Option D → Prop
  | none => file = none
  | some d => file = some (.document d) ∧ check d = true

section Specs

variable {D ε : Type} {error : FileStoreErrorCode → ε} {check : D → Bool}
  {J : FileState D → Prop} {state : FileState D}

/-- Reading leaves everything as it is. -/
theorem readDocument_spec {Q : Except ε (Option D) → FileState D → Prop} (hJ : J state)
    (hok : ∀ d, readsAs check state.file d → Q (.ok d) state)
    (herr : ∀ e, Q (.error e) state) :
    Prog.Spec fileStep J (readDocument error check) Q state := by
  simp only [readDocument, Prog.spec_bind, Prog.spec_attempt]
  rw [Prog.spec_perform]
  intro content state' hstep
  cases content with
  | error e =>
      obtain rfl : state' = state := hstep
      exact ⟨hJ, herr _⟩
  | ok content =>
      obtain ⟨hcontent, rfl⟩ : content = state.file ∧ state' = state := hstep
      refine ⟨hJ, ?_⟩
      rw [← hcontent] at hok
      cases content with
      | none => exact hok none rfl
      | some content =>
          cases content with
          | other => exact herr _
          | document d =>
              dsimp only
              split
              · next hcheck => exact hok (some d) ⟨rfl, hcheck⟩
              · exact herr _

/-- No call but a rename touches the file. -/
theorem file_eq_of_step {file : Option (Content D)} (s : FileState D) (c : FileCall D)
    (r : Except ε (FileAnswer c)) (s' : FileState D) (hc : c ≠ .rename) (hs : s.file = file)
    (hstep : fileStep s c r s') : s'.file = file := by
  cases c <;> cases r <;> simp_all [fileStep]

theorem only_cleanUp (closed : Bool) :
    Prog.Only (· ≠ FileCall.rename) (cleanUp closed : Prog (FileCall D) FileAnswer ε Unit) := by
  have hcall : ∀ c : FileCall D, c ≠ .rename →
      Prog.Only (· ≠ FileCall.rename) (Prog.perform c : Prog _ FileAnswer ε _).attempt :=
    fun c hc => Prog.only_attempt.mpr (Prog.only_perform.mpr hc)
  have hunlink : Prog.Only (· ≠ FileCall.rename) (do
      let _ ← (Prog.perform (FileCall.unlink : FileCall D)).attempt
      return () : Prog (FileCall D) FileAnswer ε Unit) :=
    Prog.Only.bind (hcall .unlink (by simp)) fun _ => Prog.only_pure
  cases closed with
  | true => exact hunlink
  | false => exact Prog.Only.bind (hcall .close (by simp)) fun _ => hunlink

/-- Wherever a write stops, the file holds the old document or the new one; it
holds the new one exactly when the write succeeds. -/
theorem writeDocument_spec {d : D} {Q : Except ε Unit → FileState D → Prop}
    (hJ : ∀ s, s.file = state.file ∨ s.file = some (.document d) → J s)
    (hok : ∀ s, s.file = some (.document d) → Q (.ok ()) s)
    (herr : ∀ e s, s.file = state.file → Q (.error e) s) :
    Prog.Spec fileStep J (writeDocument error d) Q state := by
  have hfail : ∀ closed s, s.file = state.file →
      Prog.Spec fileStep J (do
        cleanUp closed
        .throw (error .writeFailed)) Q s := by
    intro closed s hs
    exact Prog.Spec.bind_of_only (only_cleanUp closed) file_eq_of_step
      (fun s hs => hJ s (Or.inl hs)) hs (fun _ s hs => herr _ s hs) (fun _ s hs => herr _ s hs)
  simp only [writeDocument, Prog.spec_bind, Prog.spec_attempt, Prog.spec_perform]
  rintro (e | _) s₁ h₁
  all_goals
    obtain rfl : s₁ = state := h₁
    refine ⟨hJ _ (Or.inl rfl), ?_⟩
  · exact herr _ _ rfl
  rintro (e | _) s₂ h₂
  · obtain rfl : s₂ = s₁ := h₂
    exact ⟨hJ _ (Or.inl rfl), herr _ _ rfl⟩
  obtain rfl : s₂ = { s₁ with temporary := some .other } := h₂
  refine ⟨hJ _ (Or.inl rfl), ?_⟩
  rintro (e | _) s₃ h₃
  · exact ⟨hJ _ (Or.inl h₃), hfail _ _ h₃⟩
  obtain rfl : s₃ = { s₁ with temporary := some (.document d) } := h₃
  refine ⟨hJ _ (Or.inl rfl), ?_⟩
  rintro (e | _) s₄ h₄
  all_goals
    obtain rfl : s₄ = { s₁ with temporary := some (.document d) } := h₄
    refine ⟨hJ _ (Or.inl rfl), ?_⟩
  · exact hfail _ _ rfl
  rintro (e | _) s₅ h₅
  all_goals
    obtain rfl : s₅ = { s₁ with temporary := some (.document d) } := h₅
    refine ⟨hJ _ (Or.inl rfl), ?_⟩
  · exact hfail _ _ rfl
  -- only now is the temporary file renamed, and it holds the new document
  rintro (e | _) s₆ h₆
  · obtain rfl : s₆ = { s₁ with temporary := some (.document d) } := h₆
    exact ⟨hJ _ (Or.inl rfl), hfail _ _ rfl⟩
  · obtain ⟨-, rfl⟩ := h₆
    exact ⟨hJ _ (Or.inr rfl), hok _ rfl⟩

end Specs

end AtlasManager.Lib
