import AtlasManager.Backup.RunStores

/-!
# AtlasManager.Backup.RunLogOrder

What a log says that can be replayed.

* `recordAll` -- the store in memory after entries one by one;
* `InOrder` -- the backups are numbered from 1 on, and each ends once, after it
  has been started;
* `inOrder_of_recordAll`, `inOrder_of_replay` -- entries that a store takes are in
  order, and so is a log that can be replayed.
-/

namespace AtlasManager.Backup.RunStore

open AtlasManager.Lib InMemoryBackupRunStore

/-! ## Numbers -/

/-- The next number depends only on which numbers there are. -/
theorem nextAfter_congr {a b : List Int} (h : ∀ x, x ∈ a ↔ x ∈ b) : nextAfter a = nextAfter b := by
  unfold nextAfter
  cases ha : a.max? with
  | none =>
      obtain rfl := List.max?_eq_none_iff.mp ha
      have hb : b = [] := List.eq_nil_iff_forall_not_mem.mpr fun x hx => by
        have := (h x).mpr hx
        cases this
      rw [hb]
      rfl
  | some last =>
      obtain ⟨hmem, hle⟩ := List.max?_eq_some_iff.mp ha
      have hb : b.max? = some last :=
        List.max?_eq_some_iff.mpr ⟨(h last).mp hmem, fun x hx => hle x ((h x).mpr hx)⟩
      rw [hb]

/-- After the numbers from 1 to `count` comes the next one. -/
theorem nextAfter_eq {numbers : List Int} {count : Nat}
    (h : ∀ x, x ∈ numbers ↔ 1 ≤ x ∧ x ≤ count) : nextAfter numbers = count + 1 := by
  unfold nextAfter
  cases hmax : numbers.max? with
  | none =>
      obtain rfl := List.max?_eq_none_iff.mp hmax
      have hnone : ¬ (1 ≤ (count : Int) ∧ (count : Int) ≤ count) := fun hcount => by
        have := (h count).mpr hcount
        cases this
      dsimp only
      omega
  | some last =>
      obtain ⟨hmem, hle⟩ := List.max?_eq_some_iff.mp hmax
      obtain ⟨hfirst, hlast⟩ := (h last).mp hmem
      have hcount := hle count ((h count).mpr ⟨by omega, le_refl _⟩)
      dsimp only
      omega

/-! ## Entries one by one -/

/-- The store in memory after entries. -/
def recordAll : List RunEntry → InMemoryBackupRunStore → Except String InMemoryBackupRunStore
  | [], memory => .ok memory
  | entry :: entries, memory =>
    match memory.append entry.kind entry.run with
    | .error error => .error error
    | .ok memory => recordAll entries memory

theorem recordAll_append {entries : List RunEntry} {entry : RunEntry}
    {memory memory' : InMemoryBackupRunStore} (h : recordAll entries memory = .ok memory') :
    recordAll (entries ++ [entry]) memory = memory'.append entry.kind entry.run := by
  induction entries generalizing memory with
  | nil =>
      obtain rfl := Except.ok.inj h
      rw [List.nil_append, recordAll]
      cases memory.append entry.kind entry.run <;> rfl
  | cons first entries ih =>
      rw [recordAll] at h
      rw [List.cons_append, recordAll]
      cases hfirst : memory.append first.kind first.run with
      | error error =>
          rw [hfirst] at h
          cases h
      | ok next =>
          rw [hfirst] at h
          exact ih h

/-- The records of the backups that have been started, and of those that have ended. -/
def startsOf (entries : List RunEntry) : List BackupRun :=
  (entries.filter (·.kind = .started)).map (·.run)

def endsOf (entries : List RunEntry) : List BackupRun :=
  (entries.filter (·.kind = .terminal)).map (·.run)

/-- The backups are numbered from 1 on and have different ids; each has ended at most
once, under its number, after it has been started. -/
structure InOrder (entries : List RunEntry) : Prop where
  numbered : (startsOf entries).map (·.sequence.safeInteger?) =
    (List.range (startsOf entries).length).map fun i : Nat => some (i + 1 : Int)
  distinct : ((startsOf entries).map (·.runId)).Nodup
  endsOnce : ((endsOf entries).map (·.runId)).Nodup
  startedBefore : ∀ before run after, entries = before ++ ⟨.terminal, run⟩ :: after →
    ∃ started ∈ startsOf before, started.runId = run.runId ∧ started.sequence = run.sequence

/-- The store that entries have led to. -/
structure Tracks (entries : List RunEntry) (memory : InMemoryBackupRunStore) : Prop where
  inOrder : InOrder entries
  numbers : ∀ x : Int, x ∈ (memory.runs ++ memory.started).map (·.number) ↔
    1 ≤ x ∧ x ≤ (startsOf entries).length
  runs : memory.runs = endsOf entries
  started : ∀ run, run ∈ memory.started ↔
    run ∈ startsOf entries ∧ run.runId ∉ (endsOf entries).map (·.runId)

theorem Tracks.empty : Tracks [] .empty where
  inOrder :=
    { numbered := rfl
      distinct := List.nodup_nil
      endsOnce := List.nodup_nil
      startedBefore := fun before run after h => by simp at h }
  numbers x := by
    simp [InMemoryBackupRunStore.empty, startsOf]
    omega
  runs := rfl
  started run := by simp [InMemoryBackupRunStore.empty, startsOf]

section Steps

variable {entries : List RunEntry} {memory memory' : InMemoryBackupRunStore} {run : BackupRun}

@[simp] theorem startsOf_append_started :
    startsOf (entries ++ [⟨.started, run⟩]) = startsOf entries ++ [run] := by
  simp [startsOf]

@[simp] theorem startsOf_append_terminal :
    startsOf (entries ++ [⟨.terminal, run⟩]) = startsOf entries := by
  simp [startsOf]

@[simp] theorem endsOf_append_started :
    endsOf (entries ++ [⟨.started, run⟩]) = endsOf entries := by
  simp [endsOf]

@[simp] theorem endsOf_append_terminal :
    endsOf (entries ++ [⟨.terminal, run⟩]) = endsOf entries ++ [run] := by
  simp [endsOf]

theorem has_iff {runs : List BackupRun} {runId : String} :
    has runs runId = true ↔ runId ∈ runs.map (·.runId) := by
  simp only [has, List.any_eq_true, decide_eq_true_eq, List.mem_map]

theorem get_some {runs : List BackupRun} {runId : String} (h : get runs runId = some run) :
    run ∈ runs ∧ run.runId = runId :=
  ⟨List.mem_of_find?_eq_some h, by simpa using List.find?_some h⟩

/-- Where an entry stands in a list that has been extended by one. -/
theorem split_append_singleton {a before after : List RunEntry} {x y : RunEntry}
    (h : a ++ [x] = before ++ y :: after) :
    (∃ after', a = before ++ y :: after') ∨ before = a ∧ y = x := by
  rcases List.eq_nil_or_concat after with rfl | ⟨after', last, rfl⟩
  · obtain ⟨hbefore, hlast⟩ := List.append_inj' h rfl
    exact .inr ⟨hbefore.symm, (List.cons.inj hlast).1.symm⟩
  · rw [List.concat_eq_append, ← List.cons_append, ← List.append_assoc] at h
    exact .inl ⟨after', (List.append_inj' h rfl).1⟩

theorem assertSequence_ok {sequence : JsNumber} (h : memory.assertSequence sequence = .ok ()) :
    sequence.safeInteger? = some memory.allocateNextSequence := by
  unfold assertSequence at h
  cases hsequence : sequence.safeInteger? with
  | none =>
      rw [hsequence] at h
      cases h
  | some number =>
      rw [hsequence] at h
      dsimp only at h
      split at h
      · cases h
      · split at h
        · cases h
        · rename_i hnext
          rw [not_not.mp hnext]

/-- What it takes to add the record of a backup that has been started. -/
theorem appendStarted_ok (h : memory.appendStarted run = .ok memory') :
    memory' = { memory with started := memory.started ++ [run] } ∧
      run.runId ∉ memory.runs.map (·.runId) ∧ run.runId ∉ memory.started.map (·.runId) ∧
      run.sequence.safeInteger? = some memory.allocateNextSequence := by
  unfold appendStarted at h
  split at h
  · cases h
  · rename_i hnew
    simp only [ne_eq, not_or, has_iff] at hnew
    obtain ⟨-, hruns, hstarted⟩ := hnew
    cases hsequence : memory.assertSequence run.sequence with
    | error error =>
        rw [hsequence] at h
        cases h
    | ok _ =>
        rw [hsequence] at h
        exact ⟨(Except.ok.inj h).symm, hruns, hstarted, assertSequence_ok hsequence⟩

/-- What it takes to add the record of a backup that has ended. -/
theorem appendTerminal_ok (h : memory.appendTerminal run = .ok memory') :
    ∃ started ∈ memory.started, started.runId = run.runId ∧ started.sequence = run.sequence ∧
      run.runId ∉ memory.runs.map (·.runId) ∧
      memory' = ⟨memory.runs ++ [run], memory.started.filter fun other => other.runId ≠ run.runId⟩ := by
  unfold appendTerminal at h
  cases hget : get memory.started run.runId with
  | none =>
      rw [hget] at h
      cases h
  | some started =>
      rw [hget] at h
      dsimp only at h
      split at h
      · cases h
      · rename_i hnew
        simp only [ne_eq, not_or, not_not, has_iff] at hnew
        obtain ⟨-, hruns, hsequence⟩ := hnew
        obtain ⟨hmem, hid⟩ := get_some hget
        exact ⟨started, hmem, hid, hsequence.symm, hruns, (Except.ok.inj h).symm⟩

/-- A backup is added under the next number. -/
theorem Tracks.append_started (tracks : Tracks entries memory)
    (h : memory.appendStarted run = .ok memory') :
    Tracks (entries ++ [⟨.started, run⟩]) memory' := by
  obtain ⟨rfl, hruns, hstarted, hsequence⟩ := appendStarted_ok h
  have hnext : memory.allocateNextSequence = (startsOf entries).length + 1 :=
    nextAfter_eq tracks.numbers
  rw [hnext] at hsequence
  have hends : run.runId ∉ (endsOf entries).map (·.runId) := by
    rw [← tracks.runs]
    exact hruns
  -- a backup with this id would be among the ended ones or among the others
  have hstarts : run.runId ∉ (startsOf entries).map (·.runId) := fun hmem => by
    obtain ⟨other, hother, hid⟩ := List.mem_map.mp hmem
    refine hstarted (List.mem_map.mpr ⟨other, (tracks.started other).mpr ⟨hother, ?_⟩, hid⟩)
    rw [hid]
    exact hends
  refine ⟨⟨?_, ?_, ?_, ?_⟩, fun x => ?_, ?_, fun other => ?_⟩
  · rw [startsOf_append_started, List.map_append, tracks.inOrder.numbered, List.length_append,
      List.length_singleton, List.range_succ, List.map_append]
    simp only [List.map_cons, List.map_nil, hsequence]
  · rw [startsOf_append_started, List.map_append]
    exact List.nodup_append_comm.mp (List.nodup_cons.mpr ⟨hstarts, tracks.inOrder.distinct⟩)
  · rw [endsOf_append_started]
    exact tracks.inOrder.endsOnce
  · intro before ended after hsplit
    obtain ⟨after', hsplit⟩ | ⟨-, hlast⟩ := split_append_singleton hsplit
    · exact tracks.inOrder.startedBefore before ended after' hsplit
    · cases hlast
  · have hnumber : run.number = (startsOf entries).length + 1 := by
      rw [BackupRun.number, hsequence]
      rfl
    have hold := tracks.numbers x
    rw [startsOf_append_started, ← List.append_assoc, List.map_append, List.mem_append, hold,
      List.length_append, List.length_singleton, List.map_singleton, List.mem_singleton, hnumber]
    push_cast
    omega
  · rw [endsOf_append_started]
    exact tracks.runs
  · rw [startsOf_append_started, endsOf_append_started, List.mem_append, List.mem_append,
      tracks.started other, List.mem_singleton]
    constructor
    · rintro (⟨hother, hopen⟩ | rfl)
      · exact ⟨.inl hother, hopen⟩
      · exact ⟨.inr rfl, hends⟩
    · rintro ⟨hother | rfl, hopen⟩
      · exact .inl ⟨hother, hopen⟩
      · exact .inr rfl

/-- A backup ends under the number under which it has been started. -/
theorem Tracks.append_terminal (tracks : Tracks entries memory)
    (h : memory.appendTerminal run = .ok memory') :
    Tracks (entries ++ [⟨.terminal, run⟩]) memory' := by
  obtain ⟨started, hstarted, hid, hsequence, hruns, rfl⟩ := appendTerminal_ok h
  have hends : run.runId ∉ (endsOf entries).map (·.runId) := by
    rw [← tracks.runs]
    exact hruns
  obtain ⟨hstarts, -⟩ := (tracks.started started).mp hstarted
  refine ⟨⟨?_, ?_, ?_, ?_⟩, fun x => ?_, ?_, fun other => ?_⟩
  · rw [startsOf_append_terminal]
    exact tracks.inOrder.numbered
  · rw [startsOf_append_terminal]
    exact tracks.inOrder.distinct
  · rw [endsOf_append_terminal, List.map_append]
    exact List.nodup_append_comm.mp (List.nodup_cons.mpr ⟨hends, tracks.inOrder.endsOnce⟩)
  · intro before ended after hsplit
    obtain ⟨after', hsplit⟩ | ⟨rfl, hlast⟩ := split_append_singleton hsplit
    · exact tracks.inOrder.startedBefore before ended after' hsplit
    · obtain ⟨-, rfl⟩ := RunEntry.mk.inj hlast
      exact ⟨started, hstarts, hid, hsequence⟩
  · rw [startsOf_append_terminal, ← tracks.numbers x]
    -- the number of the backup only moves from the started ones to the ended ones
    have hnumber : run.number = started.number := by
      rw [BackupRun.number, BackupRun.number, hsequence]
    have hsame : ∀ other ∈ memory.started, other.runId = run.runId → other = started :=
      fun other hother hsameId => List.inj_on_of_nodup_map tracks.inOrder.distinct
        ((tracks.started other).mp hother).1 hstarts (hsameId.trans hid.symm)
    simp only [List.map_append, List.mem_append, List.mem_map, List.mem_singleton, List.mem_filter,
      decide_eq_true_eq]
    constructor
    · rintro ((hold | ⟨other, rfl, rfl⟩) | ⟨other, ⟨hother, -⟩, rfl⟩)
      · exact .inl hold
      · exact .inr ⟨started, hstarted, hnumber.symm⟩
      · exact .inr ⟨other, hother, rfl⟩
    · rintro (hold | ⟨other, hother, rfl⟩)
      · exact .inl (.inl hold)
      · by_cases hsameId : other.runId = run.runId
        · obtain rfl := hsame other hother hsameId
          exact .inl (.inr ⟨run, rfl, hnumber⟩)
        · exact .inr ⟨other, ⟨hother, hsameId⟩, rfl⟩
  · rw [endsOf_append_terminal, ← tracks.runs]
  · rw [startsOf_append_terminal, endsOf_append_terminal, List.mem_filter, tracks.started other,
      List.map_append, List.mem_append, List.map_singleton, List.mem_singleton, not_or,
      decide_eq_true_eq, and_assoc]

theorem Tracks.append {kind : RunEntryKind} (tracks : Tracks entries memory)
    (h : memory.append kind run = .ok memory') : Tracks (entries ++ [⟨kind, run⟩]) memory' := by
  cases kind with
  | started => exact tracks.append_started h
  | terminal => exact tracks.append_terminal h

theorem Tracks.recordAll {before : List RunEntry} (tracks : Tracks before memory)
    (h : recordAll entries memory = .ok memory') : Tracks (before ++ entries) memory' := by
  induction entries generalizing before memory with
  | nil =>
      obtain rfl := Except.ok.inj h
      rw [List.append_nil]
      exact tracks
  | cons entry entries ih =>
      rw [RunStore.recordAll] at h
      cases hfirst : memory.append entry.kind entry.run with
      | error error =>
          rw [hfirst] at h
          cases h
      | ok next =>
          rw [hfirst] at h
          have hall := ih (tracks.append hfirst) h
          rw [List.append_assoc] at hall
          exact hall

/-- **Entries that a store takes are in order.** -/
theorem inOrder_of_recordAll (h : recordAll entries .empty = .ok memory) : InOrder entries :=
  (Tracks.empty.recordAll h).inOrder

end Steps

/-! ## Logs -/

section Logs

variable (dateParses : String → Bool)

/-- Does a line read as an entry that passes the check of its record? -/
def Reads (line : LogLine) (entry : RunEntry) : Prop := line.entry? dateParses = .ok entry

variable {dateParses} {log : RunLog} {entries : List RunEntry}
  {memory memory' : InMemoryBackupRunStore}

theorem replay_of_recordAll (hreads : List.Forall₂ (Reads dateParses) log entries) :
    replay dateParses log memory = recordAll entries memory := by
  induction hreads generalizing memory with
  | nil => rfl
  | @cons line entry lines entries hline hlines ih =>
      rw [replay, show line.entry? dateParses = .ok entry from hline, recordAll]
      dsimp only
      cases memory.append entry.kind entry.run with
      | error error => rfl
      | ok next => exact ih

/-- The entries of a log that can be replayed. -/
theorem recordAll_of_replay (h : replay dateParses log memory = .ok memory') :
    ∃ entries, List.Forall₂ (Reads dateParses) log entries ∧ recordAll entries memory = .ok memory' := by
  induction log generalizing memory with
  | nil => exact ⟨[], .nil, h⟩
  | cons line lines ih =>
      rw [replay] at h
      cases hline : line.entry? dateParses with
      | error error =>
          rw [hline] at h
          cases h
      | ok entry =>
          rw [hline] at h
          dsimp only at h
          cases happend : memory.append entry.kind entry.run with
          | error error =>
              rw [happend] at h
              cases h
          | ok next =>
              rw [happend] at h
              obtain ⟨entries, hreads, hrecord⟩ := ih h
              refine ⟨entry :: entries, .cons hline hreads, ?_⟩
              rw [recordAll, happend]
              exact hrecord

/-- **A log that can be replayed is in order.** -/
theorem inOrder_of_replay (h : replay dateParses log .empty = .ok memory) :
    ∃ entries, List.Forall₂ (Reads dateParses) log entries ∧ InOrder entries := by
  obtain ⟨entries, hreads, hrecord⟩ := recordAll_of_replay h
  exact ⟨entries, hreads, inOrder_of_recordAll hrecord⟩

end Logs

end AtlasManager.Backup.RunStore
