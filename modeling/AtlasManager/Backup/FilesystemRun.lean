import AtlasManager.Lib.Prog
import AtlasManager.Backup.BackupRun
import AtlasManager.Backup.FilesystemTree

/-!
# AtlasManager.Backup.FilesystemRun

A run of the adapter that backs up a tree of files, and what a failed run leaves in
the artifact directory of its target.

* `run` -- the program of the adapter;
* `removeOwnCandidate_eq` -- the clean-up never removes anything;
* `failed_run_iff` -- a failed run leaves the directory as it was exactly when it had not
  made its candidate;
* `listManaged_candidate` -- a candidate that is left over makes every listing fail.
-/

namespace AtlasManager.Backup.FilesystemRun

open AtlasManager.Lib AtlasManager.Lib.Rfc8259 AtlasManager.Config

/-! ## Calls -/

inductive EntryKind where
  | file
  | directory
  | other
  deriving DecidableEq, Repr

/-- What `openNoFollow` says of an entry. -/
structure EntryInfo where
  kind : EntryKind
  size : Nat
  mode : Nat
  nlink : Nat
  deriving DecidableEq, Repr

/-- The calls of a run to the file system and to the clock; entries of the source and of the
copy are named by their parts. -/
inductive Call where
  | openSourceRoot
  | makeDestinationRoot
  | chmodDestinationRoot
  | makeArtifacts
  | makeTargetRoot
  | makeCandidate
  | makeData
  | chmodCandidate
  | readSource (parts : List Name)
  | openSource (parts : List Name)
  | closeSource (parts : List Name)
  | makeDirectory (parts : List Name)
  | copyFile (parts : List Name) (info : EntryInfo)
  | now
  | readCopy (parts : List Name)
  | openCopy (parts : List Name)
  | closeCopy (parts : List Name)
  | openManifest
  | writeManifest (text : Text)
  | syncManifest
  | closeManifest
  | syncData
  | syncCandidate
  | publish
  | removeCandidate
  deriving DecidableEq

abbrev Answer : Call → Type
  | .openSourceRoot => EntryKind
  | .readSource _ => List Name
  | .openSource _ => EntryInfo
  | .copyFile _ _ => Text
  | .now => Text
  | .readCopy _ => List Name
  | .openCopy _ => EntryInfo
  | _ => Unit

inductive RunErrorCode where
  | targetKindInvalid
  | destinationEscape
  | sourceInvalid
  | limitExceeded
  | fileUnsafe
  | sourceChanged
  | publishedArtifactUnsafe
  | filesystemCopyFailed
  deriving DecidableEq, Repr

/-- An error with one of the adapter's messages, or any other one. -/
inductive RunError where
  | backup (code : RunErrorCode)
  | other
  deriving DecidableEq

abbrev RunProg (α : Type) := Prog Call Answer RunError α

abbrev perform (c : Call) : RunProg (Answer c) := Prog.perform c

def fail {α : Type} (code : RunErrorCode) : RunProg α := .throw (.backup code)

/-! ## The program -/

structure RunInput where
  target : BackupTarget
  runId : String
  startedAt : Text

section Run

variable (input : RunInput) (destinationRoot : String)

/-- `join(targetRoot, runId + ".candidate")`, whose last name stays as it is when it is normalized. -/
def candidatePath : String :=
  destinationRoot ++ "/artifacts/" ++ input.target.id ++ "/" ++ input.runId ++ ".candidate"

/-- The names on a path once it is normalized: `.` is left out, and `..` takes a name away. -/
def pathNames (path : String) : List (List Char) :=
  (path.toList.splitOn '/').foldl (fun names name =>
    if name = [] ∨ name = ['.'] then names
    else if name = ['.', '.'] then names.dropLast
    else names ++ [name]) []

/-- `assertContained`: what `relative` gives of the candidate is neither empty nor starts with `..`. -/
def isContained : Bool :=
  let root := pathNames destinationRoot
  let candidate := pathNames (candidatePath input destinationRoot)
  root.isPrefixOf candidate &&
    match candidate.drop root.length with
    | [] => false
    | name :: _ => !"..".toList.isPrefixOf name

/-! ### The copy -/

/-- The loop over the entries of a directory, with the walk that goes below one. -/
def copyEntries (copyBelow : List Name → CopyState → RunProg CopyState) (parts : List Name) :
    List Name → CopyState → RunProg CopyState
  | [], state => pure state
  | name :: names, state => do
    let nextParts := parts ++ [name]
    let relativePath := relativePath nextParts
    if nextParts.length > input.target.limits.maxDepth ∨
        (utf8 relativePath).length > input.target.limits.maxRelativePathBytes then
      fail .limitExceeded
    else do
      let info ← perform (.openSource nextParts)
      -- the handle is closed however the copy of the entry ends
      let copied ← Prog.attempt (match info.kind with
        | .directory => do
          perform (.makeDirectory nextParts)
          copyBelow nextParts state
        | .file =>
          if info.nlink ≠ 1 ∨ info.size > input.target.limits.maxFileBytes then fail .fileUnsafe
          else if state.files + 1 > input.target.limits.maxFiles ∨
              state.totalBytes + info.size > input.target.limits.maxTotalBytes then
            fail .limitExceeded
          else do
            let digest ← perform (.copyFile nextParts info)
            pure { files := state.files + 1
                   totalBytes := state.totalBytes + info.size
                   digests := (relativePath, digest) :: state.digests }
        | .other => fail .fileUnsafe)
      perform (.closeSource nextParts)
      let state ← Prog.ofExcept copied
      copyEntries copyBelow parts names state

/-- `#copyTree`; no entry is opened deeper than the limit allows. -/
def copyTree : Nat → List Name → CopyState → RunProg CopyState
  | 0, _, _ => fail .limitExceeded
  | depth + 1, parts, state => do
    let names ← perform (.readSource parts)
    copyEntries input (copyTree depth) parts (names.insertionSort bytewise) state

/-- The loop of the walk through the copy. -/
def readEntries (digests : List (Name × Text))
    (readBelow : List Name → List CopiedFile → RunProg (List CopiedFile)) (parts : List Name) :
    List Name → List CopiedFile → RunProg (List CopiedFile)
  | [], files => pure files
  | name :: names, files => do
    let next := parts ++ [name]
    let info ← perform (.openCopy next)
    let walked ← Prog.attempt (match info.kind with
      | .directory => readBelow next files
      | .file =>
        match digests.lookup (relativePath next) with
        | none => fail .publishedArtifactUnsafe
        | some sha256 => pure (files ++ [⟨relativePath next, info.size, info.mode % 0o1000, sha256⟩])
      | .other => fail .publishedArtifactUnsafe)
    perform (.closeCopy next)
    let files ← Prog.ofExcept walked
    readEntries digests readBelow parts names files

/-- The walk of `#readCopiedFiles`; the copy is as deep as the source was. -/
def readTree (digests : List (Name × Text)) :
    Nat → List Name → List CopiedFile → RunProg (List CopiedFile)
  | 0, _, _ => fail .publishedArtifactUnsafe
  | depth + 1, parts, files => do
    let names ← perform (.readCopy parts)
    readEntries digests (readTree digests depth) parts (names.insertionSort bytewise) files

/-! ### The run -/

structure BackupArtifactResult where
  fileCount : Nat
  totalBytes : Nat
  manifest : Text

/-- What is done before the candidate is there. -/
def prepare : RunProg Unit := do
  perform .makeDestinationRoot
  perform .chmodDestinationRoot
  perform .makeArtifacts
  perform .makeTargetRoot
  perform .makeCandidate

def ofManifest {α : Type} : Except BackupManifestErrorCode α → RunProg α
  | .ok a => pure a
  | .error _ => .throw .other

/-- What is done to the candidate before it is published. -/
def fillCandidate : RunProg (BackupManifest × Text) := do
  perform .makeData
  perform .chmodCandidate
  let state ← copyTree input (input.target.limits.maxDepth + 1) [] ⟨0, 0, []⟩
  let completedAt ← perform .now
  let files ← readTree state.digests (input.target.limits.maxDepth + 1) [] []
  let header : ManifestHeader :=
    ⟨ascii input.target.id, ascii input.runId, input.startedAt, completedAt⟩
  let manifest ← ofManifest (createBackupManifest (manifestRecord header
    (files.insertionSort fun a b => bytewise a.path b.path)))
  perform .openManifest
  let text ← ofManifest (serializeBackupManifest manifest)
  perform (.writeManifest text)
  perform .syncManifest
  perform .closeManifest
  perform .syncData
  perform .syncCandidate
  pure (manifest, text)

/-- `removeOwnCandidate` -/
def removeOwnCandidate : RunProg Unit :=
  if "/candidate".toList.isSuffixOf (candidatePath input destinationRoot).toList then do
    let _ ← Prog.attempt (perform .removeCandidate)
    pure ()
  else pure ()

def rethrow {α : Type} : RunError → RunProg α
  | .backup code => .throw (.backup code)
  | .other => .throw (.backup .filesystemCopyFailed)

/-- `FilesystemTreeBackupAdapter.run` -/
def run : RunProg BackupArtifactResult := do
  if input.target.kind ≠ .filesystemTree ∨ input.target.sourcePath = none then
    fail .targetKindInvalid
  else if !isContained input destinationRoot then fail .destinationEscape
  else do
    -- the handle is closed again before anything else is done
    let kind ← perform .openSourceRoot
    if kind ≠ .directory then fail .sourceInvalid
    else do
      match ← Prog.attempt prepare with
      | .error e => rethrow e
      | .ok _ =>
        -- from here on `candidateCreated` is set
        match ← Prog.attempt (do
            let made ← fillCandidate input
            perform .publish
            pure made) with
        | .error e => do
          removeOwnCandidate input destinationRoot
          rethrow e
        | .ok (manifest, text) =>
          pure ⟨manifest.fileCount, manifest.totalBytes, text⟩

end Run

/-! ## The artifact directory -/

/-- The artifact directory of a target: what is at each path below it.  A directory that is not there
has no entries. -/
structure World (F : Type) where
  entries : String → Option F
  /-- has this run made its candidate? -/
  candidateCreated : Bool

/-- Where a call acts. -/
inductive Place where
  | outside
  /-- below the candidate -/
  | inside
  /-- on the candidate as a whole -/
  | candidate
  deriving DecidableEq

def Call.place : Call → Place
  | .makeData | .chmodCandidate | .makeDirectory _ | .copyFile _ _ | .openManifest |
    .writeManifest _ | .syncManifest | .closeManifest | .syncData | .syncCandidate => .inside
  | .makeCandidate | .publish | .removeCandidate => .candidate
  | _ => .outside

section World

variable {F : Type} (empty : F) (candidate published : String)

def setEntry (entries : String → Option F) (name : String) (content : Option F) :
    String → Option F :=
  fun other => if other = name then content else entries other

/-- What a call does to the artifact directory.  Every call can fail, at the latest moment
with its work half done; a directory is renamed, made and removed as a whole. -/
inductive Acts : World F → (c : Call) → Except RunError (Answer c) → World F → Prop
  | outside {w c r} : c.place = .outside → Acts w c r w
  | inside {w c r content} : c.place = .inside →
      Acts w c r { w with entries := setEntry w.entries candidate (some content) }
  | made {w} : w.entries candidate = none →
      Acts w .makeCandidate (.ok ()) ⟨setEntry w.entries candidate (some empty), true⟩
  | notMade {w e} : Acts w .makeCandidate (.error e) w
  | published {w} : Acts w .publish (.ok ()) { w with
      entries := setEntry (setEntry w.entries candidate none) published (w.entries candidate) }
  | notPublished {w e} : Acts w .publish (.error e) w
  | removed {w} : Acts w .removeCandidate (.ok ())
      { w with entries := setEntry w.entries candidate none }

end World

/-! ## The clean-up -/

/-- The path of a candidate ends with `.candidate`, so that it never ends with `/candidate`. -/
theorem not_isSuffixOf_candidatePath (input : RunInput) (destinationRoot : String) :
    "/candidate".toList.isSuffixOf (candidatePath input destinationRoot).toList = false := by
  rw [Bool.eq_false_iff, ne_eq, List.isSuffixOf_iff_suffix]
  intro hsuffix
  have hpath : ".candidate".toList <:+ (candidatePath input destinationRoot).toList := by
    rw [candidatePath, String.toList_append]
    exact List.suffix_append _ _
  have hsame : "/candidate".toList = ".candidate".toList :=
    (List.suffix_of_suffix_length_le hsuffix hpath (by decide)).eq_of_length (by decide)
  exact absurd hsame (by decide)

/-- **The clean-up** does nothing, on any path. -/
theorem removeOwnCandidate_eq (input : RunInput) (destinationRoot : String) :
    removeOwnCandidate input destinationRoot = pure () := by
  rw [removeOwnCandidate, not_isSuffixOf_candidatePath, if_neg (by simp)]

/-! ## The calls of the parts -/

/-- A call that neither makes, publishes nor removes the candidate. -/
def Call.IsPlain (c : Call) : Prop := c.place ≠ .candidate

section Only

variable {input : RunInput}

theorem only_plain {c : Call} (h : c.IsPlain) : Prog.Only Call.IsPlain (perform c) :=
  Prog.only_perform.mpr h

theorem only_perform_bind {c : Call} {α : Type} {f : Answer c → RunProg α} (h : c.IsPlain)
    (hf : ∀ a, Prog.Only Call.IsPlain (f a)) : Prog.Only Call.IsPlain (perform c >>= f) :=
  .bind (only_plain h) hf

theorem only_copyEntries {copyBelow : List Name → CopyState → RunProg CopyState}
    (hbelow : ∀ parts state, Prog.Only Call.IsPlain (copyBelow parts state)) (parts names : List Name)
    (state : CopyState) : Prog.Only Call.IsPlain (copyEntries input copyBelow parts names state) := by
  induction names generalizing state with
  | nil => exact Prog.only_pure
  | cons name names ih =>
      rw [copyEntries]
      split_ifs
      · exact Prog.only_throw
      · refine only_perform_bind nofun fun info => ?_
        refine Prog.Only.bind (Prog.only_attempt.mpr ?_) fun copied => ?_
        · cases info.kind with
          | directory => exact only_perform_bind nofun fun _ => hbelow _ _
          | file =>
              dsimp only
              split_ifs
              · exact Prog.only_throw
              · exact Prog.only_throw
              · exact only_perform_bind nofun fun _ => Prog.only_pure
          | other => exact Prog.only_throw
        · refine only_perform_bind nofun fun _ => ?_
          exact Prog.Only.bind Prog.only_ofExcept fun next => ih next

theorem only_copyTree (depth : Nat) (parts : List Name) (state : CopyState) :
    Prog.Only Call.IsPlain (copyTree input depth parts state) := by
  induction depth generalizing parts state with
  | zero => exact Prog.only_throw
  | succ depth ih =>
      rw [copyTree]
      exact only_perform_bind nofun fun names => only_copyEntries ih _ _ _

theorem only_readEntries {digests : List (Name × Text)}
    {readBelow : List Name → List CopiedFile → RunProg (List CopiedFile)}
    (hbelow : ∀ parts files, Prog.Only Call.IsPlain (readBelow parts files)) (parts names : List Name)
    (files : List CopiedFile) :
    Prog.Only Call.IsPlain (readEntries digests readBelow parts names files) := by
  induction names generalizing files with
  | nil => exact Prog.only_pure
  | cons name names ih =>
      rw [readEntries]
      refine only_perform_bind nofun fun info => ?_
      refine Prog.Only.bind (Prog.only_attempt.mpr ?_) fun walked => ?_
      · cases info.kind with
        | directory => exact hbelow _ _
        | file =>
            dsimp only
            split
            · exact Prog.only_throw
            · exact Prog.only_pure
        | other => exact Prog.only_throw
      · refine only_perform_bind nofun fun _ => ?_
        exact Prog.Only.bind Prog.only_ofExcept fun next => ih next

theorem only_readTree {digests : List (Name × Text)} (depth : Nat) (parts : List Name)
    (files : List CopiedFile) : Prog.Only Call.IsPlain (readTree digests depth parts files) := by
  induction depth generalizing parts files with
  | zero => exact Prog.only_throw
  | succ depth ih =>
      rw [readTree]
      exact only_perform_bind nofun fun names => only_readEntries ih _ _ _

theorem only_ofManifest {α : Type} (result : Except BackupManifestErrorCode α) :
    Prog.Only Call.IsPlain (ofManifest result) := by
  cases result with
  | ok a => exact Prog.only_pure
  | error e => exact Prog.only_throw

/-- What is done to the candidate neither publishes nor removes it. -/
theorem only_fillCandidate : Prog.Only Call.IsPlain (fillCandidate input) := by
  rw [fillCandidate]
  refine only_perform_bind nofun fun _ => only_perform_bind nofun fun _ => ?_
  refine Prog.Only.bind (only_copyTree _ _ _) fun state => ?_
  refine only_perform_bind nofun fun completedAt => ?_
  refine Prog.Only.bind (only_readTree _ _ _) fun files => ?_
  refine Prog.Only.bind (only_ofManifest _) fun manifest => ?_
  refine only_perform_bind nofun fun _ => ?_
  generalize serializeBackupManifest manifest = serialized
  refine Prog.Only.bind (only_ofManifest serialized) fun text => ?_
  refine only_perform_bind nofun fun _ => only_perform_bind nofun fun _ => ?_
  refine only_perform_bind nofun fun _ => only_perform_bind nofun fun _ => ?_
  exact only_perform_bind nofun fun _ => Prog.only_pure

end Only

/-! ## What a failed run leaves -/

section Failed

variable {F : Type} {empty : F} {candidate published : String} {w w' : World F}

theorem Acts.outside_eq {c : Call} {r : Except RunError (Answer c)} (hc : c.place = .outside)
    (h : Acts empty candidate published w c r w') : w' = w := by
  cases h with
  | outside _ => rfl
  | inside hinside => simp [hinside] at hc
  | made _ => simp [Call.place] at hc
  | notMade => rfl
  | published => simp [Call.place] at hc
  | notPublished => rfl
  | removed => simp [Call.place] at hc

/-- The candidate that a run has made is there. -/
structure HasCandidate (candidate : String) (w : World F) : Prop where
  created : w.candidateCreated = true
  there : w.entries candidate ≠ none

theorem Acts.hasCandidate {c : Call} {r : Except RunError (Answer c)} (hc : c.IsPlain)
    (hw : HasCandidate candidate w) (h : Acts empty candidate published w c r w') :
    HasCandidate candidate w' := by
  cases h with
  | outside _ => exact hw
  | inside _ => exact ⟨hw.created, by simp [setEntry]⟩
  | made _ => exact (hc rfl).elim
  | notMade => exact hw
  | published => exact (hc rfl).elim
  | notPublished => exact hw
  | removed => exact (hc rfl).elim

/-- What a run that fails leaves. -/
structure Leaves (candidate : String) (w w' : World F) : Prop where
  untouched : w'.candidateCreated = false → w'.entries = w.entries
  leftover : w'.candidateCreated = true → w.entries candidate = none ∧ w'.entries candidate ≠ none

theorem leaves_of_untouched (hfresh : w'.candidateCreated = false)
    (hsame : w'.entries = w.entries) : Leaves candidate w w' where
  untouched _ := hsame
  leftover hcreated := by simp [hfresh] at hcreated

theorem leaves_of_hasCandidate (hw : HasCandidate candidate w')
    (hnone : w.entries candidate = none) : Leaves candidate w w' where
  untouched hfresh := by simp [hw.created] at hfresh
  leftover _ := ⟨hnone, hw.there⟩

/-- Before the candidate is made, the directory stays as it is. -/
theorem prepare_spec (hfresh : w.candidateCreated = false) :
    Prog.Spec (Acts empty candidate published) (fun _ => True) prepare (fun o w' =>
      match o with
      | .ok _ => HasCandidate candidate w' ∧ w.entries candidate = none
      | .error _ => w' = w) w := by
  have houtside : ∀ {c : Call} {f : Answer c → RunProg Unit} {Q : Except RunError Unit → World F → Prop},
      c.place = .outside → (∀ e, Q (.error e) w) →
      (∀ a, Prog.Spec (Acts empty candidate published) (fun _ => True) (f a) Q w) →
      Prog.Spec (Acts empty candidate published) (fun _ => True) (perform c >>= f) Q w := by
    intro c f Q hc herror hok
    rw [Prog.spec_bind, Prog.spec_perform]
    intro r w' hacts
    obtain rfl := hacts.outside_eq hc
    refine ⟨trivial, ?_⟩
    cases r with
    | ok a => exact hok a
    | error e => exact herror e
  rw [prepare]
  refine houtside rfl (fun _ => rfl) fun _ => houtside rfl (fun _ => rfl) fun _ => ?_
  refine houtside rfl (fun _ => rfl) fun _ => houtside rfl (fun _ => rfl) fun _ => ?_
  rw [Prog.spec_perform]
  intro r w' hacts
  refine ⟨trivial, ?_⟩
  cases hacts with
  | outside hplace => simp [Call.place] at hplace
  | inside hplace => simp [Call.place] at hplace
  | made hnone => exact ⟨⟨rfl, by simp [setEntry]⟩, hnone⟩
  | notMade => rfl

theorem fillCandidate_spec {input : RunInput} (hw : HasCandidate candidate w) :
    Prog.Spec (Acts empty candidate published) (fun _ => True) (do
      let made ← fillCandidate input
      perform .publish
      pure made) (fun o w' => ∀ e, o = .error e → HasCandidate candidate w') w := by
  refine Prog.Spec.bind_of_only only_fillCandidate
    (fun w c r w' hc hw hacts => hacts.hasCandidate hc hw) (fun _ _ => trivial) hw ?_ ?_
  · intro made w' hw'
    rw [Prog.spec_bind, Prog.spec_perform]
    intro r w'' hacts
    refine ⟨trivial, ?_⟩
    cases hacts with
    | outside hplace => simp [Call.place] at hplace
    | inside hplace => simp [Call.place] at hplace
    | published => exact fun e he => by cases he
    | notPublished => exact fun e he => hw'
  · exact fun e w' hw' _ _ => hw'

theorem spec_rethrow {α : Type} {e : RunError} {Q : Except RunError α → World F → Prop}
    (hQ : ∀ e, Q (.error e) w) :
    Prog.Spec (Acts empty candidate published) (fun _ => True) (rethrow e) Q w := by
  cases e with
  | backup code => exact hQ _
  | other => exact hQ _

/-- A run that fails has left everything untouched, or its candidate is left over. -/
theorem run_spec {input : RunInput} {destinationRoot : String} (hfresh : w.candidateCreated = false) :
    Prog.Spec (Acts empty candidate published) (fun _ => True) (run input destinationRoot)
      (fun o w' => ∀ e, o = .error e → Leaves candidate w w') w := by
  have hsame : ∀ e : RunError, (Except.error e : Except RunError BackupArtifactResult) = .error e →
      Leaves candidate w w := fun _ _ => leaves_of_untouched hfresh rfl
  rw [run]
  split_ifs with hkind hcontained
  · exact fun e _ => leaves_of_untouched hfresh rfl
  · exact fun e _ => leaves_of_untouched hfresh rfl
  · rw [Prog.spec_bind, Prog.spec_perform]
    intro r w₁ hacts
    obtain rfl := hacts.outside_eq rfl
    refine ⟨trivial, ?_⟩
    cases r with
    | error e => exact fun _ _ => leaves_of_untouched hfresh rfl
    | ok kind =>
        dsimp only
        split_ifs with hdirectory
        · exact fun e _ => leaves_of_untouched hfresh rfl
        · rw [Prog.spec_bind, Prog.spec_attempt]
          refine (prepare_spec hfresh).mono (fun _ h => h) ?_
          intro prepared w₂ hprepared
          cases prepared with
          | error e =>
              obtain rfl := hprepared
              exact spec_rethrow fun _ _ _ => leaves_of_untouched hfresh rfl
          | ok _ =>
              obtain ⟨hcandidate, hnone⟩ := hprepared
              show Prog.Spec _ _ (_ >>= _) _ w₂
              rw [Prog.spec_bind, Prog.spec_attempt]
              refine (fillCandidate_spec hcandidate).mono (fun _ h => h) ?_
              intro made w₃ hmade
              cases made with
              | error e =>
                  show Prog.Spec _ _ (removeOwnCandidate input destinationRoot >>= _) _ w₃
                  rw [removeOwnCandidate_eq]
                  exact spec_rethrow fun _ _ _ => leaves_of_hasCandidate (hmade e rfl) hnone
              | ok made => exact fun e he => by cases he

end Failed

/-! ## The listing of the artifacts -/

inductive ListErrorCode where
  | artifactsTooMany
  | candidatePresent
  | unknownArtifact
  /-- what the checks of one artifact find -/
  | artifact
  deriving DecidableEq, Repr

section Listing

variable {F A : Type} (readArtifact : String → F → Except ListErrorCode A)

/-- The loop of `listManaged`; `readArtifact` reads and checks a published artifact. -/
def listEntries : List (String × F) → Except ListErrorCode (List A)
  | [] => .ok []
  | (entry, content) :: entries =>
    if !isRunId entry then
      if ".candidate".toList.isSuffixOf entry.toList then .error .candidatePresent
      else .error .unknownArtifact
    else do
      let artifact ← readArtifact entry content
      let artifacts ← listEntries entries
      pure (artifact :: artifacts)

/-- `FilesystemBackupArtifactStore.listManaged` -/
def listManaged (entries : List (String × F)) : Except ListErrorCode (List A) :=
  if entries.length > 100000 then .error .artifactsTooMany
  else listEntries readArtifact
    (entries.insertionSort fun left right => bytewise left.1.toList right.1.toList)

/-- A character that is in none of the classes is not in the text. -/
theorem notMem_of_matchesClasses {classes : List (Char → Bool)} {text : String} {c : Char}
    (h : matchesClasses classes text = true) (hnone : ∀ f ∈ classes, f c = false) :
    c ∉ text.toList := by
  rw [matchesClasses, Bool.and_eq_true, decide_eq_true_eq, List.all_eq_true] at h
  obtain ⟨hlength, hall⟩ := h
  intro hc
  obtain ⟨i, hi, rfl⟩ := List.mem_iff_getElem.mp hc
  have hzip : i < (classes.zip text.toList).length := by simp [hlength] at hi ⊢; omega
  have hclass := hall _ (List.getElem_mem hzip)
  rw [List.getElem_zip] at hclass
  simp [hnone _ (List.getElem_mem _)] at hclass

/-- A run id has no dot. -/
theorem isRunId_candidate (runId : String) : isRunId (runId ++ ".candidate") = false := by
  by_contra hrunId
  rw [Bool.not_eq_false, isRunId] at hrunId
  refine notMem_of_matchesClasses (c := '.') hrunId ?_ (by simp)
  simp [isHexDigit]

theorem listEntries_candidate {runId : String} {entries : List (String × F)} {artifacts : List A}
    {content : F} (hthere : (runId ++ ".candidate", content) ∈ entries) :
    listEntries readArtifact entries ≠ .ok artifacts := by
  induction entries generalizing artifacts with
  | nil => simp at hthere
  | cons entry entries ih =>
      obtain ⟨name, below⟩ := entry
      rw [listEntries]
      by_cases hname : isRunId name = true
      · have hne : name ≠ runId ++ ".candidate" := by
          intro heq
          rw [heq, isRunId_candidate] at hname
          exact absurd hname (by decide)
        have hrest : (runId ++ ".candidate", content) ∈ entries := by
          simpa [Ne.symm hne] using hthere
        rw [hname]
        intro hok
        obtain ⟨artifact, -, hok⟩ := exists_of_bind_ok hok
        obtain ⟨rest, hrest', -⟩ := exists_of_bind_ok hok
        exact ih hrest hrest'
      · rw [Bool.not_eq_true] at hname
        rw [hname]
        split_ifs <;> simp at *

/-- A candidate that is left over makes every listing fail. -/
theorem listManaged_candidate {runId : String} {entries : List (String × F)} {content : F}
    (hthere : (runId ++ ".candidate", content) ∈ entries) (artifacts : List A) :
    listManaged readArtifact entries ≠ .ok artifacts := by
  rw [listManaged]
  split_ifs
  · simp
  · exact listEntries_candidate readArtifact ((List.mem_insertionSort _).mpr hthere)

/-- **A failed run** leaves the artifact directory of its target as it was exactly when it
has not made its candidate; after one that has, the artifacts of the target cannot be listed. -/
theorem failed_run_iff {empty : F} {input : RunInput} {destinationRoot : String}
    {entries entries' : String → Option F} {candidateCreated : Bool} {e : RunError}
    (hrun : Prog.Exec (Acts empty (input.runId ++ ".candidate") input.runId)
      (run input destinationRoot) ⟨entries, false⟩ (.error e) ⟨entries', candidateCreated⟩) :
    (entries' = entries ↔ candidateCreated = false) ∧
      (candidateCreated = true → ∀ listing : List (String × F),
        (∀ name content, entries' name = some content → (name, content) ∈ listing) →
        ∀ artifacts : List A, listManaged readArtifact listing ≠ .ok artifacts) := by
  have hleaves := (run_spec rfl).exec hrun e rfl
  refine ⟨⟨fun hsame => ?_, hleaves.untouched⟩, fun hcreated listing hlisting artifacts => ?_⟩
  · by_contra hcreated
    obtain ⟨hnone, hthere⟩ := hleaves.leftover (by simpa using hcreated)
    exact hthere (hsame ▸ hnone)
  · obtain ⟨content, hcontent⟩ := Option.ne_none_iff_exists'.mp (hleaves.leftover hcreated).2
    exact listManaged_candidate readArtifact (hlisting _ _ hcontent) artifacts

end Listing

/-! ## Runs that fail -/

/-- A run that backs up the documents. -/
def docsRun : RunInput where
  target := { docs with kind := .filesystemTree, sourcePath := some "/srv/docs" }
  runId := "11111111-1111-4111-8111-111111111111"
  startedAt := ascii "2026-01-01T00:00:00.000Z"

/-- The run of the documents starts with opening the root of the source. -/
theorem run_docsRun : run docsRun "/backups" = (do
    let kind ← perform .openSourceRoot
    if kind ≠ .directory then fail .sourceInvalid
    else do
      match ← Prog.attempt prepare with
      | .error e => rethrow e
      | .ok _ =>
        match ← Prog.attempt (do
            let made ← fillCandidate docsRun
            perform .publish
            pure made) with
        | .error e => rethrow e
        | .ok (manifest, text) => pure ⟨manifest.fileCount, manifest.totalBytes, text⟩) := by
  rw [run, if_neg (by decide), if_neg (by decide +kernel)]
  simp only [removeOwnCandidate_eq]
  rfl

/-- The artifact directory holds one artifact of an earlier run. -/
def oneArtifact : String → Option Unit :=
  setEntry (fun _ => none) "22222222-2222-4222-8222-222222222222" (some ())

/-- What is there once the candidate of the run was made and written to. -/
def withCandidate : String → Option Unit :=
  setEntry (setEntry oneArtifact (docsRun.runId ++ ".candidate") (some ()))
    (docsRun.runId ++ ".candidate") (some ())

/-- A run whose candidate cannot be made leaves the artifact alone; one that cannot make the directory
for the data leaves its candidate beside the artifact, and the two cannot be listed. -/
theorem failed_run_iff_docs :
    (oneArtifact = oneArtifact ↔ false = false) ∧ (withCandidate = oneArtifact ↔ true = false) ∧
      ∀ artifacts, listManaged (fun name () => .ok name)
        [("22222222-2222-4222-8222-222222222222", ()), (docsRun.runId ++ ".candidate", ())] ≠
          .ok artifacts := by
  have hrefused : Prog.Exec (Acts () (docsRun.runId ++ ".candidate") docsRun.runId)
      (run docsRun "/backups") ⟨oneArtifact, false⟩ (.error (.backup .filesystemCopyFailed))
      ⟨oneArtifact, false⟩ := by
    rw [run_docsRun]
    refine .call (r := .ok .directory) (.outside rfl) ?_
    refine .call (r := .ok ()) (.outside rfl) (.call (r := .ok ()) (.outside rfl) ?_)
    refine .call (r := .ok ()) (.outside rfl) (.call (r := .ok ()) (.outside rfl) ?_)
    exact .call (r := .error .other) .notMade .throw
  have hleft : Prog.Exec (Acts () (docsRun.runId ++ ".candidate") docsRun.runId)
      (run docsRun "/backups") ⟨oneArtifact, false⟩ (.error (.backup .filesystemCopyFailed))
      ⟨withCandidate, true⟩ := by
    rw [run_docsRun]
    refine .call (r := .ok .directory) (.outside rfl) ?_
    refine .call (r := .ok ()) (.outside rfl) (.call (r := .ok ()) (.outside rfl) ?_)
    refine .call (r := .ok ()) (.outside rfl) (.call (r := .ok ()) (.outside rfl) ?_)
    exact .call (.made rfl) (.call (r := .error .other) (.inside rfl) .throw)
  obtain ⟨hchanged, hlisting⟩ := failed_run_iff (fun name () => .ok name) hleft
  refine ⟨(failed_run_iff (fun name () => .ok name) hrefused).1, hchanged, hlisting rfl _ ?_⟩
  intro name content hentry
  simp only [withCandidate, oneArtifact, setEntry] at hentry
  split_ifs at hentry with hcandidate hartifact
  · simp [hcandidate]
  · simp [hartifact]

/-- The directory for the data cannot be made. -/
theorem failed_run_leaves_candidate :
    ¬ ∀ (input : RunInput) (destinationRoot : String) (entries entries' : String → Option Unit)
      (candidateCreated : Bool) (e : RunError),
      Prog.Exec (Acts () (input.runId ++ ".candidate") input.runId) (run input destinationRoot)
        ⟨entries, false⟩ (.error e) ⟨entries', candidateCreated⟩ → entries' = entries := by
  intro hclaim
  let before : String → Option Unit := fun _ => none
  let candidate := docsRun.runId ++ ".candidate"
  let after := setEntry (setEntry before candidate (some ())) candidate (some ())
  have hrun : Prog.Exec (Acts () candidate docsRun.runId) (run docsRun "/backups")
      ⟨before, false⟩ (.error (.backup .filesystemCopyFailed)) ⟨after, true⟩ := by
    rw [run_docsRun]
    refine .call (r := .ok .directory) (.outside rfl) ?_
    refine .call (r := .ok ()) (.outside rfl) (.call (r := .ok ()) (.outside rfl) ?_)
    refine .call (r := .ok ()) (.outside rfl) (.call (r := .ok ()) (.outside rfl) ?_)
    exact .call (.made rfl) (.call (r := .error .other) (.inside rfl) .throw)
  have hsame := congrFun (hclaim _ _ _ _ _ _ hrun) candidate
  simp [after, before, setEntry] at hsame

end AtlasManager.Backup.FilesystemRun
