import AtlasManager.Backup.RunLogOrder

/-!
# AtlasManager.Backup.RunStoreRefinement

What the store with a log answers, in terms of the store in memory.

* `GuardedRunStore` -- the store in memory behind the checks of the store with the
  log: it takes what passes them, and is closed by the first record that passes
  them and cannot be added;
* `perform_refines` -- an operation of the store with the log answers as the guarded
  store does;
* `fileBackupRunStore_refines` -- the same of every sequence of operations, with what
  the log says in the end.
-/

namespace AtlasManager.Backup.RunStore

open AtlasManager.Lib InMemoryBackupRunStore

/-! ## The guarded store -/

/-- The store in memory, with the entries that have been recorded. -/
structure GuardedRunStore where
  memory : InMemoryBackupRunStore
  entries : List RunEntry
  isOpen : Bool

/-- The lines of entries. -/
def logOf (lineBytes : RunEntry → Nat) (entries : List RunEntry) : RunLog :=
  entries.map fun entry => ⟨some entry.toJs, lineBytes entry⟩

namespace GuardedRunStore

def empty : GuardedRunStore := ⟨.empty, [], true⟩

variable (dateParses : String → Bool) (lineBytes : RunEntry → Nat)

/-- The checks before a record is added, which refuse it without any effect. -/
def passes (guarded : GuardedRunStore) (entry : RunEntry) : Bool :=
  validateRun dateParses entry.run entry.kind &&
    match entry.kind with
    | .started => entry.run.sequence.safeInteger? = some guarded.memory.allocateNextSequence
    | .terminal => true

def close (guarded : GuardedRunStore) : GuardedRunStore := { guarded with isOpen := false }

/-- The record of an entry that passes the checks. -/
def record (guarded : GuardedRunStore) (entry : RunEntry) : Option RunAnswer × GuardedRunStore :=
  match guarded.memory.append entry.kind entry.run with
  | .error _ => (none, guarded.close)
  | .ok memory =>
    if lineBytes entry + 1 > maximumLineBytes then (none, guarded.close)
    else
      let entries := guarded.entries ++ [entry]
      if (logOf lineBytes entries).size > maximumFileBytes then (none, ⟨memory, entries, false⟩)
      else (some .recorded, ⟨memory, entries, true⟩)

def perform (guarded : GuardedRunStore) (operation : RunOperation) :
    Option RunAnswer × GuardedRunStore :=
  if !guarded.isOpen then (none, guarded)
  else
    match operation with
    | .append kind run =>
      if passes dateParses guarded ⟨kind, run⟩ then record lineBytes guarded ⟨kind, run⟩
      else (none, guarded)
    | operation => ((guarded.memory.read operation).toOption, guarded)

end GuardedRunStore

/-- The answers to operations one after the other, and the state in the end. -/
def performAll {σ ω : Type} (perform : σ → ω → Option RunAnswer × σ) :
    List ω → σ → List (Option RunAnswer) × σ
  | [], state => ([], state)
  | operation :: operations, state =>
    let (answer, state) := perform state operation
    let (answers, state) := performAll perform operations state
    (answer :: answers, state)

/-- The operations of the two stores; an answer is `none` when there is an error. -/
def memoryStep (store : InMemoryBackupRunStore) (operation : RunOperation) :
    Option RunAnswer × InMemoryBackupRunStore :=
  let (answer, store) := store.perform operation
  (answer.toOption, store)

def fileStep (dateParses : String → Bool) (lineBytes : RunEntry → Nat) (faults : RunStoreFaults)
    (world : RunStoreWorld) (operation : RunOperation) : Option RunAnswer × RunStoreWorld :=
  let (answer, world) := FileBackupRunStore.perform dateParses lineBytes faults world operation
  (answer.toOption, world)

/-! ## What a world stands for -/

section Refinement

variable {dateParses : String → Bool} {lineBytes : RunEntry → Nat}

/-- A store that has read its log. -/
structure IsReady (memory : InMemoryBackupRunStore) (world : RunStoreWorld) : Prop where
  state : world.store.state = .ready
  memory : world.store.memory = memory
  snapshot : world.store.snapshot = some world.file
  fits : (world.file.getD []).size ≤ maximumFileBytes

/-- A store that refuses everything: it has failed, or its log is too large. -/
def IsClosed (world : RunStoreWorld) : Prop :=
  (∃ error, world.store.state = .failed error) ∨
    world.store.state = .ready ∧ (world.file.getD []).size > maximumFileBytes

/-- The worlds that a guarded store stands for. -/
structure Represents (dateParses : String → Bool) (lineBytes : RunEntry → Nat)
    (guarded : GuardedRunStore) (world : RunStoreWorld) : Prop where
  file : world.file.getD [] = logOf lineBytes guarded.entries
  opened : guarded.isOpen = true →
    IsReady guarded.memory world ∨ guarded = .empty ∧ world = .opened none
  closed : guarded.isOpen = false → IsClosed world
  recorded : recordAll guarded.entries .empty = .ok guarded.memory
  valid : ∀ entry ∈ guarded.entries,
    validateRun dateParses entry.run entry.kind ∧ lineBytes entry + 1 ≤ maximumLineBytes

theorem represents_empty : Represents dateParses lineBytes .empty (.opened none) where
  file := rfl
  opened _ := .inr ⟨rfl, rfl⟩
  closed h := by cases h
  recorded := rfl
  valid entry h := by cases h

/-! ## Reading -/

theorem readHistory_of_fits {file : Option RunLog} (h : (file.getD []).size ≤ maximumFileBytes) :
    readHistory false file = .ok file := by
  cases file with
  | none => rfl
  | some log =>
      rw [Option.getD_some] at h
      simp only [readHistory, Bool.false_eq_true, if_false, if_neg (not_lt_of_ge h)]

theorem readHistory_of_large {file : Option RunLog} (h : (file.getD []).size > maximumFileBytes) :
    readHistory false file = .error "backup_run_history_too_large" := by
  cases file with
  | none => cases h
  | some log =>
      rw [Option.getD_some] at h
      simp only [readHistory, Bool.false_eq_true, if_false, if_pos h]

theorem ensureUsable_ready {memory : InMemoryBackupRunStore} {world : RunStoreWorld}
    (h : IsReady memory world) :
    FileBackupRunStore.ensureUsable dateParses false world = (.ok (), world) := by
  unfold FileBackupRunStore.ensureUsable
  rw [h.state]
  dsimp only
  rw [readHistory_of_fits h.fits, h.snapshot]
  dsimp only
  rw [Option.getD_some, if_pos rfl]

theorem ensureUsable_closed {world : RunStoreWorld} (h : IsClosed world) :
    ∃ error, FileBackupRunStore.ensureUsable dateParses false world = (.error error, world) := by
  unfold FileBackupRunStore.ensureUsable
  obtain ⟨error, hstate⟩ | ⟨hstate, hlarge⟩ := h
  · rw [hstate]
    exact ⟨error, rfl⟩
  · rw [hstate]
    dsimp only
    rw [readHistory_of_large hlarge]
    exact ⟨_, rfl⟩

/-- The number that the snapshot of the store leads to is the one that the store allocates. -/
theorem nextAfter_reconstruct (memory : InMemoryBackupRunStore) :
    nextAfter (memory.reconstruct.runs.map (·.number) ++
        memory.reconstruct.interrupted.map (·.number)) = memory.allocateNextSequence := by
  refine nextAfter_congr fun x => ?_
  have hinterrupted : memory.reconstruct.interrupted.map (·.number) =
      memory.started.map (·.number) := by
    change (memory.started.map (·.interrupted)).map (·.number) = _
    rw [List.map_map]
    rfl
  have hruns : x ∈ memory.reconstruct.runs.map (·.number) ↔ x ∈ memory.runs.map (·.number) :=
    ((List.mergeSort_perm memory.runs _).map _).mem_iff
  rw [hinterrupted, List.mem_append, hruns, List.map_append, List.mem_append]

theorem allocateNextSequence_ready {memory : InMemoryBackupRunStore} {world : RunStoreWorld}
    (h : IsReady memory world) :
    FileBackupRunStore.allocateNextSequence dateParses false world =
      (.ok memory.allocateNextSequence, world) := by
  unfold FileBackupRunStore.allocateNextSequence
  rw [ensureUsable_ready h]
  dsimp only
  rw [nextAfter_reconstruct, h.memory]

/-- The first operation of a store without a file reads that there is none. -/
theorem perform_opened (operation : RunOperation) :
    FileBackupRunStore.perform dateParses lineBytes .none (.opened none) operation =
      FileBackupRunStore.perform dateParses lineBytes .none
        { store := ⟨.empty, .ready, some none⟩, file := none } operation := by
  cases operation <;> rfl

/-! ## Recording -/

theorem checkSequence_ready {memory : InMemoryBackupRunStore} {world : RunStoreWorld}
    (h : IsReady memory world) (run : BackupRun) :
    FileBackupRunStore.checkSequence dateParses false run world .started =
      if run.sequence.safeInteger? = some memory.allocateNextSequence then (.ok (), world)
      else (.error "backup_sequence_conflict", world) := by
  unfold FileBackupRunStore.checkSequence
  rw [allocateNextSequence_ready h]

/-- A record that does not pass the checks has no effect. -/
theorem prepare_refused {guarded : GuardedRunStore} {world : RunStoreWorld} {entry : RunEntry}
    (hready : IsReady guarded.memory world) (h : guarded.passes dateParses entry = false) :
    ∃ error, FileBackupRunStore.prepare dateParses .none entry world = (.error error, world) := by
  obtain ⟨kind, run⟩ := entry
  unfold FileBackupRunStore.prepare
  rw [show RunStoreFaults.none.read = false from rfl, ensureUsable_ready hready]
  dsimp only
  cases hvalid : validateRun dateParses run kind with
  | false => exact ⟨_, rfl⟩
  | true =>
      rw [GuardedRunStore.passes, hvalid, Bool.true_and] at h
      rw [Bool.not_true, if_neg Bool.false_ne_true]
      cases kind with
      | terminal => cases h
      | started =>
          rw [show RunStoreFaults.none.readAgain = false from rfl, checkSequence_ready hready,
            if_neg (of_decide_eq_false h)]
          exact ⟨_, rfl⟩

theorem prepare_passed {guarded : GuardedRunStore} {world : RunStoreWorld} {entry : RunEntry}
    (hready : IsReady guarded.memory world) (h : guarded.passes dateParses entry = true) :
    FileBackupRunStore.prepare dateParses .none entry world =
      match guarded.memory.append entry.kind entry.run with
      | .error error => (.error error, world.fail error)
      | .ok memory => (.ok (), { world with store := { world.store with memory } }) := by
  obtain ⟨kind, run⟩ := entry
  obtain ⟨hvalid, hsequence⟩ := (Bool.and_eq_true _ _).mp h
  have hcheck : FileBackupRunStore.checkSequence dateParses false run world kind =
      (.ok (), world) := by
    cases kind with
    | terminal => rfl
    | started => rw [checkSequence_ready hready, if_pos (of_decide_eq_true hsequence)]
  unfold FileBackupRunStore.prepare
  rw [show RunStoreFaults.none.read = false from rfl, ensureUsable_ready hready]
  dsimp only at hvalid ⊢
  rw [hvalid, Bool.not_true, if_neg Bool.false_ne_true,
    show RunStoreFaults.none.readAgain = false from rfl, hcheck]
  dsimp only
  cases happend : guarded.memory.append kind run with
  | error error => rw [hready.memory, happend]
  | ok memory => rw [hready.memory, happend]

/-- The append of an entry to a log. -/
theorem append_none (entry : RunEntry) (file : Option RunLog) :
    FileBackupRunStore.append lineBytes none entry file =
      if lineBytes entry + 1 > maximumLineBytes then
        (.error "backup_run_history_line_too_large", some (file.getD []))
      else (.ok (), some (file.getD [] ++ logOf lineBytes [entry])) := rfl

theorem record_none (entry : RunEntry) (world : RunStoreWorld) :
    FileBackupRunStore.record dateParses lineBytes .none entry world =
      match FileBackupRunStore.prepare dateParses .none entry world with
      | (.error error, world) => (.error error, world)
      | (.ok _, world) => FileBackupRunStore.write lineBytes .none entry world := rfl

theorem write_none (entry : RunEntry) (world : RunStoreWorld) :
    FileBackupRunStore.write lineBytes .none entry world =
      match FileBackupRunStore.append lineBytes none entry world.file with
      | (.error error, file) => (.error error, { world with file }.fail error)
      | (.ok _, file) => FileBackupRunStore.refreshSnapshot false { world with file } := rfl

/-- A record that passes the checks is refused for good, or is in memory and in the log. -/
theorem record_refines {guarded : GuardedRunStore} {world : RunStoreWorld} {entry : RunEntry}
    (h : Represents dateParses lineBytes guarded world) (hready : IsReady guarded.memory world)
    (hpasses : guarded.passes dateParses entry = true) :
    ∃ answer next, FileBackupRunStore.record dateParses lineBytes .none entry world = (answer, next) ∧
      (answer.map fun _ => RunAnswer.recorded).toOption = (guarded.record lineBytes entry).1 ∧
      Represents dateParses lineBytes (guarded.record lineBytes entry).2 next := by
  rw [record_none, prepare_passed hready hpasses, GuardedRunStore.record]
  have hvalid : validateRun dateParses entry.run entry.kind = true :=
    ((Bool.and_eq_true _ _).mp hpasses).1
  cases happend : guarded.memory.append entry.kind entry.run with
  | error error =>
      exact ⟨_, _, rfl, rfl, h.file, fun hopen => (by cases hopen), fun _ => .inl ⟨error, rfl⟩,
        h.recorded, h.valid⟩
  | ok memory =>
      dsimp only
      rw [write_none, append_none]
      by_cases hlong : lineBytes entry + 1 > maximumLineBytes
      · rw [if_pos hlong, if_pos hlong]
        exact ⟨_, _, rfl, rfl, h.file, fun hopen => (by cases hopen), fun _ => .inl ⟨_, rfl⟩,
          h.recorded, h.valid⟩
      · rw [if_neg hlong, if_neg hlong]
        dsimp only
        have hfile : world.file.getD [] ++ logOf lineBytes [entry] =
            logOf lineBytes (guarded.entries ++ [entry]) := by
          rw [h.file, logOf, logOf, logOf, List.map_append]
        have hrecorded : recordAll (guarded.entries ++ [entry]) .empty = .ok memory := by
          rw [recordAll_append h.recorded, happend]
        have hvalid' : ∀ other ∈ guarded.entries ++ [entry],
            validateRun dateParses other.run other.kind ∧ lineBytes other + 1 ≤ maximumLineBytes := by
          intro other hother
          rcases List.mem_append.mp hother with hold | hnew
          · exact h.valid other hold
          · obtain rfl := List.mem_singleton.mp hnew
            exact ⟨hvalid, Nat.le_of_not_lt hlong⟩
        rw [hfile]
        unfold FileBackupRunStore.refreshSnapshot
        by_cases hlarge : (logOf lineBytes (guarded.entries ++ [entry])).size > maximumFileBytes
        · have hread := readHistory_of_large
            (show ((some (logOf lineBytes (guarded.entries ++ [entry]))).getD []).size > _ from hlarge)
          rw [if_pos hlarge, hread]
          exact ⟨_, _, rfl, rfl, rfl, fun hopen => (by cases hopen),
            fun _ => .inr ⟨hready.state, hlarge⟩, hrecorded, hvalid'⟩
        · have hfits : ((some (logOf lineBytes (guarded.entries ++ [entry]))).getD []).size ≤
              maximumFileBytes := Nat.le_of_not_lt hlarge
          rw [if_neg hlarge, readHistory_of_fits hfits]
          exact ⟨_, _, rfl, rfl, rfl, fun _ => .inl ⟨hready.state, rfl, rfl, hfits⟩,
            fun hopen => (by cases hopen), hrecorded, hvalid'⟩

/-! ## Every operation -/

/-- A store that refuses everything stays as it is. -/
theorem perform_closed {world : RunStoreWorld} (h : IsClosed world) (operation : RunOperation) :
    fileStep dateParses lineBytes .none world operation = (none, world) := by
  obtain ⟨error, hensure⟩ := @ensureUsable_closed dateParses world h
  have hread : RunStoreFaults.none.read = false := rfl
  unfold fileStep
  cases operation with
  | append kind run =>
      have hprepare : FileBackupRunStore.prepare dateParses .none ⟨kind, run⟩ world =
          (.error error, world) := by
        unfold FileBackupRunStore.prepare
        rw [hread, hensure]
      unfold FileBackupRunStore.perform FileBackupRunStore.record
      dsimp only [RunStoreFaults.none] at hprepare ⊢
      rw [hprepare]
      rfl
  | allocateNextSequence =>
      unfold FileBackupRunStore.perform FileBackupRunStore.allocateNextSequence
      rw [hread, hensure]
      rfl
  | getByRunId runId =>
      unfold FileBackupRunStore.perform
      rw [hread, hensure]
      rfl
  | query input =>
      unfold FileBackupRunStore.perform
      rw [hread, hensure]
      rfl
  | reconstruct =>
      unfold FileBackupRunStore.perform
      rw [hread, hensure]
      rfl

/-- An operation of a store that has read its log. -/
theorem perform_ready {guarded : GuardedRunStore} {world : RunStoreWorld}
    (h : Represents dateParses lineBytes guarded world) (hopen : guarded.isOpen = true)
    (hready : IsReady guarded.memory world) (operation : RunOperation) :
    ∃ next, fileStep dateParses lineBytes .none world operation =
        ((guarded.perform dateParses lineBytes operation).1, next) ∧
      Represents dateParses lineBytes (guarded.perform dateParses lineBytes operation).2 next := by
  have hread : RunStoreFaults.none.read = false := rfl
  unfold fileStep GuardedRunStore.perform
  rw [hopen, Bool.not_true, if_neg Bool.false_ne_true]
  cases operation with
  | append kind run =>
      dsimp only [FileBackupRunStore.perform]
      by_cases hpasses : guarded.passes dateParses ⟨kind, run⟩ = true
      · rw [if_pos hpasses]
        obtain ⟨answer, next, hrecord, hanswer, hnext⟩ := record_refines h hready hpasses
        rw [hrecord]
        exact ⟨next, by rw [hanswer], hnext⟩
      · rw [if_neg hpasses]
        obtain ⟨error, hprepare⟩ := prepare_refused hready (eq_false_of_ne_true hpasses)
        have hrecord : FileBackupRunStore.record dateParses lineBytes .none ⟨kind, run⟩ world =
            (.error error, world) := by
          unfold FileBackupRunStore.record
          dsimp only [RunStoreFaults.none] at hprepare ⊢
          rw [hprepare]
          rfl
        rw [hrecord]
        exact ⟨world, rfl, h⟩
  | allocateNextSequence =>
      dsimp only [FileBackupRunStore.perform]
      rw [hread, allocateNextSequence_ready hready]
      exact ⟨world, rfl, h⟩
  | getByRunId runId =>
      dsimp only [FileBackupRunStore.perform]
      rw [hread, ensureUsable_ready hready]
      refine ⟨world, ?_, h⟩
      dsimp only
      rw [hready.memory]
  | query input =>
      dsimp only [FileBackupRunStore.perform]
      rw [hread, ensureUsable_ready hready]
      refine ⟨world, ?_, h⟩
      dsimp only
      rw [hready.memory]
  | reconstruct =>
      dsimp only [FileBackupRunStore.perform]
      rw [hread, ensureUsable_ready hready]
      refine ⟨world, ?_, h⟩
      dsimp only
      rw [hready.memory]

/-- **An operation of the store with the log answers as the guarded store does.** -/
theorem perform_refines {guarded : GuardedRunStore} {world : RunStoreWorld}
    (h : Represents dateParses lineBytes guarded world) (operation : RunOperation) :
    ∃ next, fileStep dateParses lineBytes .none world operation =
        ((guarded.perform dateParses lineBytes operation).1, next) ∧
      Represents dateParses lineBytes (guarded.perform dateParses lineBytes operation).2 next := by
  cases hopen : guarded.isOpen with
  | false =>
      have hrefuses : guarded.perform dateParses lineBytes operation = (none, guarded) := by
        unfold GuardedRunStore.perform
        rw [hopen, Bool.not_false, if_pos rfl]
      rw [hrefuses]
      exact ⟨world, perform_closed (h.closed hopen) operation, h⟩
  | true =>
      obtain hready | ⟨rfl, rfl⟩ := h.opened hopen
      · exact perform_ready h hopen hready operation
      · -- from here on the store is one that has read that there is no file
        have hready : IsReady .empty
            { store := ⟨.empty, .ready, some none⟩, file := none } :=
          ⟨rfl, rfl, rfl, Nat.zero_le _⟩
        have hrepresents : Represents dateParses lineBytes .empty
            { store := ⟨.empty, .ready, some none⟩, file := none } :=
          ⟨rfl, fun _ => .inl hready, fun hclosed => (by cases hclosed), h.recorded, h.valid⟩
        obtain ⟨next, hnext⟩ := perform_ready hrepresents rfl hready operation
        refine ⟨next, ?_⟩
        rw [fileStep, perform_opened]
        exact hnext

theorem performAll_refines {guarded : GuardedRunStore} {world : RunStoreWorld}
    (h : Represents dateParses lineBytes guarded world) (operations : List RunOperation) :
    (performAll (fileStep dateParses lineBytes .none) operations world).1 =
        (performAll (GuardedRunStore.perform dateParses lineBytes) operations guarded).1 ∧
      Represents dateParses lineBytes
        (performAll (GuardedRunStore.perform dateParses lineBytes) operations guarded).2
        (performAll (fileStep dateParses lineBytes .none) operations world).2 := by
  induction operations generalizing guarded world with
  | nil => exact ⟨rfl, h⟩
  | cons operation operations ih =>
      obtain ⟨next, hstep, hnext⟩ := perform_refines h operation
      obtain ⟨hanswers, hfinal⟩ := ih hnext
      rw [performAll, performAll, hstep]
      dsimp only
      exact ⟨by rw [hanswers], hfinal⟩

/-! ## The log in the end -/

/-- An operation records its own entry, if any. -/
theorem perform_entries (dateParses : String → Bool) (lineBytes : RunEntry → Nat)
    (guarded : GuardedRunStore) (operation : RunOperation) :
    (guarded.perform dateParses lineBytes operation).2.entries = guarded.entries ∨
      ∃ kind run, operation = .append kind run ∧
        (guarded.perform dateParses lineBytes operation).2.entries = guarded.entries ++ [⟨kind, run⟩] := by
  unfold GuardedRunStore.perform
  split
  · exact .inl rfl
  · cases operation with
    | append kind run =>
        dsimp only
        split
        · unfold GuardedRunStore.record
          split
          · exact .inl rfl
          · split
            · exact .inl rfl
            · refine .inr ⟨kind, run, rfl, ?_⟩
              dsimp only
              split <;> rfl
        · exact .inl rfl
    | _ => exact .inl rfl

/-- What has been recorded has been given to the store. -/
theorem recorded_mem {operations : List RunOperation} {guarded : GuardedRunStore} {entry : RunEntry}
    (h : entry ∈ (performAll (GuardedRunStore.perform dateParses lineBytes) operations
      guarded).2.entries) :
    entry ∈ guarded.entries ∨ .append entry.kind entry.run ∈ operations := by
  induction operations generalizing guarded with
  | nil => exact .inl h
  | cons operation operations ih =>
      rw [performAll] at h
      rcases ih h with hmem | hmem
      · rcases perform_entries dateParses lineBytes guarded operation with hsame | ⟨kind, run, rfl, hnew⟩
        · rw [hsame] at hmem
          exact .inl hmem
        · rw [hnew] at hmem
          rcases List.mem_append.mp hmem with hold | hlast
          · exact .inl hold
          · obtain rfl := List.mem_singleton.mp hlast
            exact .inr List.mem_cons_self
      · exact .inr (List.mem_cons_of_mem _ hmem)

/-- The lines of entries with finite numbers read as these entries. -/
theorem reads_logOf {entries : List RunEntry} (hvalid : ∀ entry ∈ entries,
      validateRun dateParses entry.run entry.kind ∧ lineBytes entry + 1 ≤ maximumLineBytes)
    (hfinite : ∀ entry ∈ entries, entry.run.IsFinite) :
    List.Forall₂ (Reads dateParses) (logOf lineBytes entries) entries := by
  induction entries with
  | nil => exact .nil
  | cons entry entries ih =>
      refine .cons ?_ (ih (fun other hother => hvalid other (List.mem_cons_of_mem _ hother))
        fun other hother => hfinite other (List.mem_cons_of_mem _ hother))
      obtain ⟨hrun, hbytes⟩ := hvalid entry List.mem_cons_self
      unfold Reads LogLine.entry?
      rw [if_neg (by dsimp only; omega)]
      dsimp only
      rw [readEntry_toJs (hfinite entry List.mem_cons_self)]
      dsimp only
      rw [if_pos hrun]

theorem Represents.reconstructs {guarded : GuardedRunStore} {world : RunStoreWorld}
    (h : Represents dateParses lineBytes guarded world)
    (hfinite : ∀ entry ∈ guarded.entries, entry.run.IsFinite) :
    reconstructFromData dateParses world.file = .ok guarded.memory ∧
      List.Forall₂ (Reads dateParses) (world.file.getD []) guarded.entries ∧
      InOrder guarded.entries := by
  have hreads := reads_logOf h.valid hfinite
  have hreplay : replay dateParses (logOf lineBytes guarded.entries) .empty = _ :=
    replay_of_recordAll hreads
  rw [h.recorded, ← h.file] at hreplay
  refine ⟨?_, by rw [h.file]; exact hreads, inOrder_of_recordAll h.recorded⟩
  cases hfile : world.file with
  | none =>
      rw [hfile] at hreplay
      exact hreplay
  | some log =>
      rw [hfile] at hreplay
      exact hreplay

/-! ## After a failed append -/

/-- A store that has failed refuses everything, whatever fails now. -/
theorem fileStep_failed {world : RunStoreWorld} {error : String}
    (h : world.store.state = .failed error) (faults : RunStoreFaults) (operation : RunOperation) :
    fileStep dateParses lineBytes faults world operation = (none, world) := by
  have hensure : ∀ fault, FileBackupRunStore.ensureUsable dateParses fault world =
      (.error error, world) := fun fault => by
    unfold FileBackupRunStore.ensureUsable
    rw [h]
  unfold fileStep
  cases operation with
  | append kind run =>
      have hprepare : FileBackupRunStore.prepare dateParses faults ⟨kind, run⟩ world =
          (.error error, world) := by
        unfold FileBackupRunStore.prepare
        rw [hensure]
      unfold FileBackupRunStore.perform FileBackupRunStore.record
      dsimp only
      rw [hprepare]
      cases faults.lock with
      | some busy => rfl
      | none => cases faults.unlock <;> rfl
  | allocateNextSequence =>
      unfold FileBackupRunStore.perform FileBackupRunStore.allocateNextSequence
      rw [hensure]
      rfl
  | getByRunId runId =>
      unfold FileBackupRunStore.perform
      rw [hensure]
      rfl
  | query input =>
      unfold FileBackupRunStore.perform
      rw [hensure]
      rfl
  | reconstruct =>
      unfold FileBackupRunStore.perform
      rw [hensure]
      rfl

theorem performAll_failed {world : RunStoreWorld} {error : String}
    (h : world.store.state = .failed error) (later : List (RunStoreFaults × RunOperation)) :
    ∀ answer ∈ (performAll (fun world step => fileStep dateParses lineBytes step.1 world step.2) later
      world).1, answer = none := by
  induction later with
  | nil =>
      intro answer hanswer
      cases hanswer
  | cons step later ih =>
      rw [performAll, fileStep_failed h]
      intro answer hanswer
      rcases List.mem_cons.mp hanswer with rfl | hrest
      · rfl
      · exact ih answer hrest

/-- A record whose append to the log fails leaves a store that has failed. -/
theorem record_failed {faults : RunStoreFaults} {entry : RunEntry} {world prepared : RunStoreWorld}
    {error : String} {file : Option RunLog} (hlock : faults.lock = none)
    (hprepare : FileBackupRunStore.prepare dateParses faults entry world = (.ok (), prepared))
    (happend : FileBackupRunStore.append lineBytes faults.append entry prepared.file =
      (.error error, file)) :
    (FileBackupRunStore.record dateParses lineBytes faults entry world).2.store.state =
      .failed error := by
  unfold FileBackupRunStore.record FileBackupRunStore.write
  rw [hlock]
  dsimp only
  rw [hprepare]
  dsimp only
  rw [happend]
  rfl

end Refinement

/-! ## The two stores -/

/-- **The store with the log answers as the guarded store does**, over any operations; what it
has written stands for the records in memory, in order; a log that is not in order cannot be
replayed; and after an append that has failed everything is refused. -/
theorem fileBackupRunStore_refines (dateParses : String → Bool) (lineBytes : RunEntry → Nat) :
    (∀ operations, (performAll (fileStep dateParses lineBytes .none) operations (.opened none)).1 =
      (performAll (GuardedRunStore.perform dateParses lineBytes) operations .empty).1) ∧
    (∀ operations : List RunOperation, (∀ kind run, .append kind run ∈ operations → run.IsFinite) →
      let world := (performAll (fileStep dateParses lineBytes .none) operations (.opened none)).2
      let guarded := (performAll (GuardedRunStore.perform dateParses lineBytes) operations .empty).2
      reconstructFromData dateParses world.file = .ok guarded.memory ∧
        List.Forall₂ (Reads dateParses) (world.file.getD []) guarded.entries ∧
        InOrder guarded.entries) ∧
    (∀ log memory, replay dateParses log .empty = .ok memory →
      ∃ entries, List.Forall₂ (Reads dateParses) log entries ∧ InOrder entries) ∧
    (∀ faults entry world prepared error file, faults.lock = none →
      FileBackupRunStore.prepare dateParses faults entry world = (.ok (), prepared) →
      FileBackupRunStore.append lineBytes faults.append entry prepared.file = (.error error, file) →
      ∀ later : List (RunStoreFaults × RunOperation), ∀ answer ∈ (performAll
        (fun world step => fileStep dateParses lineBytes step.1 world step.2) later
        (FileBackupRunStore.record dateParses lineBytes faults entry world).2).1, answer = none) := by
  refine ⟨fun operations => (performAll_refines represents_empty operations).1,
    fun operations hfinite => ?_, fun log memory h => inOrder_of_replay h,
    fun faults entry world prepared error file hlock hprepare happend later =>
      performAll_failed (record_failed hlock hprepare happend) later⟩
  refine (performAll_refines represents_empty operations).2.reconstructs fun entry hentry => ?_
  rcases recorded_mem hentry with hold | hgiven
  · cases hold
  · exact hfinite _ _ hgiven

/-- The record of a backup that has been started, and of its end. -/
def docsRun : BackupRun where
  sequence := .finite 1
  runId := "0b1b6c1e-3c52-4d7c-9f0a-5e8a3f6f1c11"
  targetId := "docs"
  trigger := .manual
  scheduledFor := none
  requestedAt := "2025-01-06T00:30:00.000Z"
  startedAt := "2025-01-06T00:30:00.000Z"
  completedAt := none
  status := .started
  artifact := none
  failureCode := none

def docsEnd : BackupRun :=
  { docsRun with
    completedAt := some "2025-01-06T00:31:00.000Z"
    status := .failed
    failureCode := some "backup_failed" }

/-- A backup that is started and ends, and what comes back from the log of it. -/
theorem fileBackupRunStore_refines_docs :
    reconstructFromData (fun _ => true) (performAll (fileStep (fun _ => true) (fun _ => 500) .none)
      [.append .started docsRun, .append .terminal docsEnd] (.opened none)).2.file =
        .ok ⟨[docsEnd], []⟩ := by
  have hfinite : ∀ kind run, RunOperation.append kind run ∈
      [.append .started docsRun, .append .terminal docsEnd] → run.IsFinite := by
    intro kind run hmem
    simp only [List.mem_cons, RunOperation.append.injEq, List.not_mem_nil, or_false] at hmem
    rcases hmem with ⟨rfl, rfl⟩ | ⟨rfl, rfl⟩ <;>
      exact ⟨⟨1, rfl⟩, fun artifact h => (by cases h)⟩
  rw [((fileBackupRunStore_refines (fun _ => true) fun _ => 500).2.1 _ hfinite).1]
  decide +kernel

/-- After the end of a backup that has not been started, the store with the log refuses even to
allocate a number; the store in memory does allocate one. -/
theorem not_fileStore_answers_as_memory :
    ¬ ∀ operations, (performAll (fileStep (fun _ => true) (fun _ => 500) .none) operations
        (.opened none)).1 = (performAll memoryStep operations .empty).1 := by
  intro h
  have hdocs := h [.append .terminal docsEnd, .allocateNextSequence]
  revert hdocs
  decide +kernel

end AtlasManager.Backup.RunStore
