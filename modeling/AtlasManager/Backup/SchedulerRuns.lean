import AtlasManager.Backup.SchedulerTick

/-!
# AtlasManager.Backup.SchedulerRuns

What holds over all ticks of the backup scheduler.

* `ticks_start_once` -- when no tick looks into a minute that another one has
  looked into, a target is started once for every minute;
* `ticks_pass_nothing` -- when the clock does not go back and few occurrences are
  due, the cursor does not go back and passes no occurrence that has not been
  offered.
-/

namespace AtlasManager.Backup

open AtlasManager.Lib AtlasManager.Scheduling RunBackupSchedulerTick

/-! ## What every call keeps -/

/-- A cursor that has not been loaded is not in memory. -/
def CursorUnread (world : BackupWorld) : Prop :=
  world.cursor.isLoaded = false → world.cursor.value = none

theorem cursorUnread_of_step (world : BackupWorld) (call : BackupCall)
    (answer : Except Unit (BackupAnswer call)) (world' : BackupWorld) (h : CursorUnread world)
    (hstep : backupStep world call answer world') : CursorUnread world' := by
  have hloads : ∀ {state state' : CursorState} {returned : Bool}, Loads state state' returned →
      state'.isLoaded = false → state'.value = none := by
    intro state state' returned hload hnot
    rw [hload.isLoaded] at hnot
    cases hnot
  cases call with
  | readCursor =>
      obtain ⟨cursor, hread, rfl⟩ := hstep
      rcases hread with hload | hload
      · exact hloads hload.1
      · exact hloads hload.1
  | compareAndSet expected next =>
      obtain ⟨cursor, hset, rfl⟩ := hstep
      generalize answer.toOption = result at hset
      cases hset with
      | loadFails hload => exact hloads hload
      | conflict hload => exact hloads hload
      | writeFails hload => exact hloads hload
      | sets hload =>
          intro hnot
          have hloaded := hload.isLoaded
          simp_all
  | claim occurrence =>
      obtain ⟨claims, -, rfl⟩ := hstep
      exact h
  | execute occurrence =>
      rcases hstep with rfl | ⟨-, rfl⟩
      · exact h
      · exact h

theorem cursorUnread_opened (cursor : Option (Content Timestamp)) (claims : ClaimFile) :
    CursorUnread (.opened cursor claims) := fun _ => rfl

theorem CursorUnread.restarted (world : BackupWorld) : CursorUnread world.restarted := fun _ => rfl

/-- A cursor that is read is the one in memory, or the one on file. -/
theorem CursorUnread.read {world : BackupWorld} (h : CursorUnread world)
    {answer : Except Unit (Option Timestamp)} {cursor : CursorState}
    (hread : ReadsCursor world.cursor answer.toOption cursor) :
    cursor.file = world.cursor.file ∧ ∀ value, answer = .ok value → world.cursor.current = value := by
  rcases hread with ⟨hload, hanswer⟩ | ⟨hload, hanswer⟩
  · refine ⟨hload.file_eq, ?_⟩
    rintro value rfl
    rw [← hload.value_eq h]
    exact (Option.some.inj hanswer).symm
  · refine ⟨hload.file_eq, ?_⟩
    rintro value rfl
    cases hanswer

section Ticks

variable {zone : Zone} {localeCompare : String → String → Ordering}
  {ok : BackupWorld → List BackupTarget → Timestamp → Prop} {start world world' : BackupWorld}
  {ticks : List BackupTick}

theorem cursorUnread_of_ticks (hstart : CursorUnread start)
    (h : BackupTicks zone localeCompare ok start ticks world) : CursorUnread world := by
  induction h with
  | start => exact hstart
  | tick isActive targets now _ _ hreach ih =>
      exact (Prog.spec_of_invariant cursorUnread_of_step _ ih).reach ih hreach
  | restart _ _ => exact CursorUnread.restarted _

end Ticks

/-! ## One backup a minute -/

section Once

variable (offset : Int → Int) (localeCompare : String → String → Ordering)

/-- Two occurrences of one target in one minute of the wall clock. -/
def SameMinute (a b : BackupOccurrence) : Prop :=
  a.targetId = b.targetId ∧
    wallMinute offset a.scheduledFor.ms = wallMinute offset b.scheduledFor.ms

/-- No target has been started twice for a minute. -/
def StartedOnce (world : BackupWorld) : Prop :=
  world.started.Pairwise fun a b => ¬ SameMinute offset a b

/-- The claims of the started occurrences are known, and the tick looks into no
minute twice, nor into one for which the target has been started from another instant. -/
structure Aligned (world : BackupWorld) (targets : List BackupTarget) (now : Timestamp) :
    Prop where
  known : world.claims.isLoaded = true → ∀ a ∈ world.started, a.key ∈ world.claims.claims
  clear : ∀ cursor, world.cursor.current = some cursor →
    ∀ a ∈ occurrencesBetween (wallClock offset) targets cursor now, ∀ b,
      b ∈ world.started ∨ b ∈ occurrencesBetween (wallClock offset) targets cursor now →
      SameMinute offset b a → b = a

/-- What holds wherever a tick may stop. -/
structure Recorded (world : BackupWorld) : Prop where
  once : StartedOnce offset world
  kept : ∀ a ∈ world.started, world.claims.Keeps a.key

/-- What holds while a tick handles the occurrences of `due`. -/
structure Handling (due : List BackupOccurrence) (world : BackupWorld) : Prop where
  once : StartedOnce offset world
  knows : ∀ a ∈ world.started, world.claims.Knows a.key
  clear : ∀ a ∈ due, ∀ b ∈ world.started, SameMinute offset b a → b = a

variable {offset} {localeCompare} {due : List BackupOccurrence} {world : BackupWorld}

theorem Handling.recorded (h : Handling offset due world) : Recorded offset world :=
  ⟨h.once, fun a ha => (h.knows a ha).1⟩

/-- The claim of an occurrence, and its backup if it is new. -/
theorem Handling.claim (h : Handling offset due world) {occurrence : BackupOccurrence}
    {answer : BackupClaimResult} {claims : ClaimState} {offered : List BackupOccurrence}
    (hclaims : Claims occurrence.targetId occurrence.scheduledFor.text world.claims
      (claimAnswer (.ok answer)) claims) :
    Handling offset due { world with claims, offered } where
  once := h.once
  knows a ha := hclaims.knows (by cases answer <;> simp [claimAnswer]) (h.knows a ha)
  clear := h.clear

theorem Handling.start (h : Handling offset due world) {occurrence : BackupOccurrence}
    (hdue : occurrence ∈ due)
    (hclear : ∀ a ∈ due, SameMinute offset occurrence a → occurrence = a)
    (hnew : occurrence ∉ world.started) (hknows : world.claims.Knows occurrence.key) :
    Handling offset due { world with started := occurrence :: world.started } where
  once := by
    refine List.pairwise_cons.mpr ⟨fun b hb hsame => ?_, h.once⟩
    -- an occurrence of the same minute is the same occurrence
    have hb' := h.clear occurrence hdue b hb ⟨hsame.1.symm, hsame.2.symm⟩
    exact hnew (hb' ▸ hb)
  knows := List.forall_mem_cons.mpr ⟨hknows, h.knows⟩
  clear a ha := List.forall_mem_cons.mpr ⟨hclear a ha, h.clear a ha⟩

theorem processOccurrences_once {occurrences : List BackupOccurrence}
    (hsubset : occurrences ⊆ due)
    (hclear : ∀ a ∈ due, ∀ b ∈ due, SameMinute offset b a → b = a)
    (processedCount duplicateCount : Nat) (h : Handling offset due world) :
    Prog.Spec backupStep (Recorded offset)
      (processOccurrences occurrences processedCount duplicateCount)
      (fun _ => Recorded offset) world := by
  induction occurrences generalizing processedCount duplicateCount world with
  | nil => exact h.recorded
  | cons occurrence occurrences ih =>
      obtain ⟨hdue, hrest⟩ := List.cons_subset.mp hsubset
      rw [processOccurrences, Prog.spec_bind, ask, Prog.spec_perform]
      rintro answer world' ⟨claims, hclaims, rfl⟩
      cases answer with
      | error e =>
          have hrecorded : Recorded offset { world with claims } :=
            ⟨h.once, fun a ha => hclaims.keeps (h.knows a ha).1⟩
          exact ⟨hrecorded, hrecorded⟩
      | ok answer =>
          have hclaimed : Handling offset due
              { world with claims, offered := occurrence :: world.offered } := h.claim hclaims
          refine ⟨hclaimed.recorded, ?_⟩
          cases answer with
          | duplicate => exact ih hrest _ _ hclaimed
          | claimed =>
              obtain ⟨hunknown, hknown⟩ := Claims.claimed hclaims
              have hnew : occurrence ∉ world.started := fun hmem =>
                hunknown (h.knows occurrence hmem)
              dsimp only
              rw [Prog.spec_bind, Prog.spec_attempt, ask, Prog.spec_perform]
              intro answer world'' hexecute
              have hstarted : Handling offset due world'' := by
                rcases hexecute with rfl | ⟨-, rfl⟩
                · exact hclaimed.start hdue (fun a ha => hclear a ha occurrence hdue) hnew hknown
                · exact hclaimed
              refine ⟨hstarted.recorded, ?_⟩
              cases answer with
              | ok _ => exact ih hrest _ _ hstarted
              | error _ => exact hstarted.recorded

/-- Setting the cursor starts nothing. -/
theorem Recorded.compareAndSet (h : Recorded offset world) (expected : Option Timestamp)
    (next : Timestamp) :
    Prog.Spec backupStep (Recorded offset) (ask (.compareAndSet expected next))
      (fun _ => Recorded offset) world := by
  rw [ask, Prog.spec_perform]
  rintro answer world' ⟨cursor, -, rfl⟩
  exact ⟨⟨h.once, h.kept⟩, ⟨h.once, h.kept⟩⟩

/-- **A tick** that is aligned starts no target again for a minute. -/
theorem execute_once {isActive : Bool} {targets : List BackupTarget} {now : Timestamp}
    (hunread : CursorUnread world) (hrecorded : Recorded offset world)
    (haligned : isActive = false → Aligned offset world targets now) :
    Prog.Spec backupStep (Recorded offset)
      (execute (wallClock offset) localeCompare isActive targets now)
      (fun _ => Recorded offset) world := by
  cases isActive with
  | true => exact hrecorded
  | false =>
  have haligned := haligned rfl
  rw [execute, if_neg Bool.false_ne_true]
  rw [Prog.spec_bind, ask, Prog.spec_perform]
  rintro answer world' ⟨cursor, hread, rfl⟩
  obtain ⟨-, hcurrent⟩ := hunread.read hread
  have hrecorded' : Recorded offset { world with cursor } := ⟨hrecorded.once, hrecorded.kept⟩
  refine ⟨hrecorded', ?_⟩
  rcases answer with _ | _ | start
  · exact hrecorded'
  · refine Prog.spec_bind.mpr ((hrecorded'.compareAndSet _ _).mono (fun _ h => h) ?_)
    rintro (_ | _ | _) world' h
    · exact h
    · exact h
    · exact h
  · -- the occurrences that the loop handles are due
    have hclear := haligned.clear start (hcurrent _ rfl)
    have hhandling : Handling offset (occurrencesBetween (wallClock offset) targets start now)
        { world with cursor } :=
      ⟨hrecorded.once, fun a ha => ⟨hrecorded.kept a ha, fun hloaded => haligned.known hloaded a ha⟩,
        fun a ha b hb => hclear a ha b (.inl hb)⟩
    have hsubset : (dueOccurrences (wallClock offset) localeCompare targets start now).take
        maximumOccurrences ⊆ occurrencesBetween (wallClock offset) targets start now :=
      fun _ hmem => dueOccurrences_subset localeCompare (List.mem_of_mem_take hmem)
    have hloop := processOccurrences_once hsubset (fun a ha b hb => hclear a ha b (.inr hb)) 0 0
      hhandling
    refine Prog.spec_bind.mpr (hloop.mono (fun _ h => h) ?_)
    rintro (_ | ⟨_ | _, processedCount, duplicateCount⟩) world' h
    · exact h
    · exact h
    · refine Prog.spec_bind.mpr ((h.compareAndSet _ _).mono (fun _ h => h) ?_)
      rintro (_ | _ | _) world' h
      · exact h
      · exact h
      · exact h

variable {start : BackupWorld} {ticks : List BackupTick}

theorem recorded_of_ticks (hunread : CursorUnread start) (hstart : Recorded offset start)
    (h : BackupTicks (wallClock offset) localeCompare (Aligned offset) start ticks world) :
    Recorded offset world := by
  induction h with
  | start => exact hstart
  | tick isActive targets now hticks haligned hreach ih =>
      exact (execute_once (cursorUnread_of_ticks hunread hticks) ih haligned).reach ih hreach
  | restart _ ih => exact ⟨ih.once, ih.kept⟩

variable {cursor : Option (Content Timestamp)} {claims : ClaimFile}

/-- **One backup a minute.**  Over ticks that are aligned, and restarts, each target
is started at most once for each minute of the wall clock. -/
theorem ticks_start_once
    (h : BackupTicks (wallClock offset) localeCompare (Aligned offset) (.opened cursor claims)
      ticks world) : StartedOnce offset world :=
  (recorded_of_ticks (cursorUnread_opened cursor claims)
    ⟨List.Pairwise.nil, List.forall_mem_nil _⟩ h).once

end Once

/-! ### Ticks just after midnight -/

section Example

/-- A clock three hours behind UTC. -/
def behindUtc : Int → Int := fun _ => -10800000

/-- A Thursday of that clock, some milliseconds after midnight. -/
def afterMidnight (ms : Fin 100000000) : Timestamp where
  ms := 10800000 + ms
  inRange := by omega

/-- Ticks over empty files in which no call fails. -/
def ticksAt (times : List Timestamp) : BackupWorld :=
  times.foldl (fun world now => (Prog.run BackupWorld.serve
    (execute (wallClock behindUtc) compare false [docs] now) world).2)
    (.opened none ⟨[], false⟩)

theorem reach_ticksAt (times : List Timestamp) (now : Timestamp) :
    Prog.Reach backupStep (execute (wallClock behindUtc) compare false [docs] now)
      (ticksAt times) (ticksAt (times ++ [now])) := by
  simp only [ticksAt, List.foldl_append, List.foldl_cons, List.foldl_nil]
  exact (Prog.exec_run backupStep_serve _ _).reach

/-- A tick of a scheduler that was started ten seconds after midnight. -/
theorem ticks_start_once_docs :
    (ticksAt [afterMidnight 10000, afterMidnight 40000]).started =
        [⟨"docs", afterMidnight 10001⟩] ∧
      StartedOnce behindUtc (ticksAt [afterMidnight 10000, afterMidnight 40000]) := by
  have hfirst : BackupTicks (wallClock behindUtc) compare (Aligned behindUtc)
      (.opened none ⟨[], false⟩) _ (ticksAt [afterMidnight 10000]) :=
    .tick false [docs] (afterMidnight 10000) .start
      (fun _ => ⟨fun hloaded => (by cases hloaded), fun _ hcursor => (by cases hcursor)⟩)
      (reach_ticksAt [] _)
  have hcurrent : (ticksAt [afterMidnight 10000]).cursor.current = some (afterMidnight 10000) := by
    decide +kernel
  have hdue : occurrencesBetween (wallClock behindUtc) [docs] (afterMidnight 10000)
      (afterMidnight 40000) = [⟨"docs", afterMidnight 10001⟩] := by decide +kernel
  have haligned : Aligned behindUtc (ticksAt [afterMidnight 10000]) [docs]
      (afterMidnight 40000) := by
    refine ⟨fun hloaded => by revert hloaded; decide +kernel, fun cursor hcursor a ha b hb _ => ?_⟩
    obtain rfl := Option.some.inj (hcurrent.symm.trans hcursor)
    rw [hdue, List.mem_singleton] at ha
    rcases hb with hb | hb
    · have hnone : (ticksAt [afterMidnight 10000]).started = [] := by decide +kernel
      rw [hnone] at hb
      cases hb
    · rw [hdue, List.mem_singleton] at hb
      rw [ha, hb]
  exact ⟨by decide +kernel, ticks_start_once (hfirst.tick false [docs] (afterMidnight 40000)
    (fun _ => haligned) (reach_ticksAt _ _))⟩

/-- The next tick, a minute and a half after midnight, finds another instant of the
first minute. -/
theorem ticks_start_twice :
    ∃ ticks world, BackupTicks (wallClock behindUtc) compare (fun _ _ _ => True)
        (.opened none ⟨[], false⟩) ticks world ∧ ¬ StartedOnce behindUtc world := by
  have htick : ∀ {ticks} (times : List Timestamp) (now : Timestamp),
      BackupTicks (wallClock behindUtc) compare (fun _ _ _ => True) (.opened none ⟨[], false⟩)
        ticks (ticksAt times) → _ :=
    fun {_} times now h => h.tick false [docs] now (fun _ => trivial) (reach_ticksAt times now)
  refine ⟨_, _, htick _ (afterMidnight 90000) (htick _ (afterMidnight 40000)
    (htick [] (afterMidnight 10000) .start)), fun honce => ?_⟩
  have hstarted : (ticksAt [afterMidnight 10000, afterMidnight 40000, afterMidnight 90000]).started
      = [⟨"docs", afterMidnight 40001⟩, ⟨"docs", afterMidnight 10001⟩] := by decide +kernel
  change (ticksAt [_, _, _]).started.Pairwise _ at honce
  rw [hstarted] at honce
  exact (List.pairwise_cons.mp honce).1 _ List.mem_cons_self ⟨rfl, by decide⟩

end Example

/-! ## Nothing is passed -/

section Passes

variable (zone : Zone) (localeCompare : String → String → Ordering)

/-- A minute in which a schedule of the target starts. -/
def DueMinute (target : BackupTarget) (minute : Int) : Prop :=
  ∀ instant, minute ≤ instant → instant < minute + 60000 → target.isDue zone instant = true

/-- The cursor does not go back, and for every minute it passes in which a target is due
the claim of an occurrence of that minute has been answered. -/
def BackupTick.PassesNothing (tick : BackupTick) : Prop :=
  ∀ before, tick.before = some before → ∃ after, tick.after = some after ∧ before.ms ≤ after.ms ∧
    ∀ target ∈ tick.targets, ∀ minute, DueMinute zone target minute →
      before.ms < minute + 59999 → minute + 59999 ≤ after.ms →
      ∃ a ∈ tick.offered, a.targetId = target.id ∧
        minute ≤ a.scheduledFor.ms ∧ a.scheduledFor.ms < minute + 60000

/-- The cursor on file is the one in memory, the clock is not behind it, and few
occurrences are due. -/
structure Steady (world : BackupWorld) (targets : List BackupTarget) (now : Timestamp) : Prop where
  known : ∀ cursor, world.persistedCursor = some cursor → world.cursor.isLoaded = true →
    world.cursor.value = some cursor
  forward : ∀ cursor, world.persistedCursor = some cursor → cursor.ms ≤ now.ms
  few : ∀ cursor, world.persistedCursor = some cursor →
    (occurrencesBetween zone targets cursor now).length ≤ maximumOccurrences

variable {zone} {localeCompare} {world : BackupWorld}

/-- The loop leaves the cursor alone, and when it is complete, every claim has been answered. -/
theorem processOccurrences_offers (occurrences : List BackupOccurrence)
    (processedCount duplicateCount : Nat) :
    Prog.Spec backupStep (fun world' => world'.cursor = world.cursor)
      (processOccurrences occurrences processedCount duplicateCount)
      (fun result world' => world'.cursor = world.cursor ∧
        ∀ counts, result = .ok (true, counts) →
          occurrences ⊆ world'.offered ∧ world.offered ⊆ world'.offered) world := by
  induction occurrences generalizing processedCount duplicateCount world with
  | nil => exact ⟨rfl, fun _ _ => ⟨List.nil_subset _, fun _ h => h⟩⟩
  | cons occurrence occurrences ih =>
      -- the rest of the loop, once the claim has been answered
      have hrest : ∀ {world' : BackupWorld} (processedCount duplicateCount : Nat),
          world'.cursor = world.cursor → world'.offered = occurrence :: world.offered →
          Prog.Spec backupStep (fun world'' => world''.cursor = world.cursor)
            (processOccurrences occurrences processedCount duplicateCount)
            (fun result world'' => world''.cursor = world.cursor ∧
              ∀ counts, result = .ok (true, counts) →
                occurrence :: occurrences ⊆ world''.offered ∧ world.offered ⊆ world''.offered)
            world' := by
        intro world' processedCount duplicateCount hcursor hoffered
        have hloop := @ih world' processedCount duplicateCount
        rw [hcursor, hoffered] at hloop
        refine hloop.mono (fun _ h => h) fun result world'' h => ⟨h.1, fun counts hresult => ?_⟩
        obtain ⟨hmem, hkept⟩ := h.2 counts hresult
        exact ⟨List.cons_subset.mpr ⟨hkept List.mem_cons_self, hmem⟩,
          fun a ha => hkept (List.mem_cons_of_mem _ ha)⟩
      rw [processOccurrences, Prog.spec_bind, ask, Prog.spec_perform]
      rintro answer world' ⟨claims, -, rfl⟩
      refine ⟨rfl, ?_⟩
      rcases answer with _ | _ | _
      · exact ⟨rfl, nofun⟩
      · dsimp only
        rw [Prog.spec_bind, Prog.spec_attempt, ask, Prog.spec_perform]
        intro answer world'' hexecute
        have hsame : world''.cursor = world.cursor ∧
            world''.offered = occurrence :: world.offered := by
          rcases hexecute with rfl | ⟨-, rfl⟩
          · exact ⟨rfl, rfl⟩
          · exact ⟨rfl, rfl⟩
        refine ⟨hsame.1, ?_⟩
        cases answer with
        | ok _ => exact hrest _ _ hsame.1 hsame.2
        | error _ => exact ⟨hsame.1, nofun⟩
      · exact hrest _ _ rfl rfl

/-- The cursor stays where it is, or all that is due up to the clock has been offered. -/
def Passed (zone : Zone) (before : Timestamp) (targets : List BackupTarget) (now : Timestamp)
    (world : BackupWorld) : Prop :=
  world.persistedCursor = some before ∨
    world.persistedCursor = some now ∧ occurrencesBetween zone targets before now ⊆ world.offered

/-- **A tick** that is steady passes nothing. -/
theorem execute_passes {targets : List BackupTarget} {now before : Timestamp}
    (hunread : CursorUnread world) (hbefore : world.persistedCursor = some before)
    (hsteady : Steady zone world targets now) :
    Prog.Spec backupStep (Passed zone before targets now)
      (execute zone localeCompare false targets now)
      (fun _ => Passed zone before targets now) world := by
  rw [execute, if_neg Bool.false_ne_true, Prog.spec_bind, ask, Prog.spec_perform]
  rintro answer world' ⟨cursor, hread, rfl⟩
  obtain ⟨hfile, hcurrent⟩ := hunread.read hread
  have hsame : BackupWorld.persistedCursor { world with cursor } = some before := by
    rw [← hbefore, BackupWorld.persistedCursor, hfile]
    rfl
  have hnow : world.cursor.current = some before := by
    rw [CursorState.current]
    split
    · next hloaded => exact hsteady.known before hbefore hloaded
    · exact hbefore
  refine ⟨.inl hsame, ?_⟩
  rcases answer with _ | _ | start
  · exact .inl hsame
  · -- the cursor on file has been read
    have hnone := hcurrent _ rfl
    rw [hnow] at hnone
    cases hnone
  · obtain rfl : before = start := Option.some.inj (hnow.symm.trans (hcurrent _ rfl))
    refine Prog.spec_bind.mpr ((processOccurrences_offers _ 0 0).mono (fun world' h => ?_) ?_)
    · left
      rw [BackupWorld.persistedCursor, h]
      exact hsame
    rintro (_ | ⟨_ | _, counts⟩) world' ⟨hcursor, hoffered⟩
    all_goals
      have hstays : world'.persistedCursor = some before := by
        rw [BackupWorld.persistedCursor, hcursor]
        exact hsame
    · exact .inl hstays
    · exact .inl hstays
    · -- everything that is due has been offered
      have hall : occurrencesBetween zone targets before now ⊆ world'.offered := by
        intro a ha
        have hperm := dueOccurrences_perm localeCompare (hsteady.few before hbefore)
        have hlength := hperm.length_eq.trans_le (hsteady.few before hbefore)
        rw [List.take_of_length_le hlength] at hoffered
        exact (hoffered counts rfl).1 (hperm.mem_iff.mpr ha)
      have hset : ∀ {answer : Option Bool} {cursor : CursorState},
          SetsCursor (some before) now world'.cursor answer cursor →
          Passed zone before targets now { world' with cursor } := by
        intro answer cursor hset
        cases hset with
        | loadFails hload =>
            left
            rw [← hstays, BackupWorld.persistedCursor, hload.file_eq]
            rfl
        | conflict hload =>
            left
            rw [← hstays, BackupWorld.persistedCursor, hload.file_eq]
            rfl
        | writeFails hload =>
            left
            rw [← hstays, BackupWorld.persistedCursor, hload.file_eq]
            rfl
        | sets => exact .inr ⟨rfl, hall⟩
      dsimp only
      simp only [Bool.not_true, Bool.false_eq_true, if_false, Prog.spec_bind, ask,
        Prog.spec_perform]
      rintro answer world'' ⟨cursor, hsets, rfl⟩
      refine ⟨hset hsets, ?_⟩
      rcases answer with _ | _ | _
      · exact hset hsets
      · exact hset hsets
      · exact hset hsets

/-- A tick that passes nothing, whether another one is under way or not. -/
theorem passesNothing_of_reach {isActive : Bool} {targets : List BackupTarget} {now : Timestamp}
    {world' : BackupWorld} (hunread : CursorUnread world)
    (hsteady : isActive = false → Steady zone world targets now)
    (hreach : Prog.Reach backupStep (execute zone localeCompare isActive targets now)
      world world') :
    BackupTick.PassesNothing zone
      ⟨targets, world.persistedCursor, world'.persistedCursor, world'.offered⟩ := by
  intro before hbefore
  have hpassed : Passed zone before targets now world' := by
    cases isActive with
    | true =>
        cases hreach
        exact .inl hbefore
    | false =>
        exact (execute_passes hunread hbefore (hsteady rfl)).reach (.inl hbefore) hreach
  rcases hpassed with hstays | ⟨hmoved, hall⟩
  · exact ⟨before, hstays, le_refl _, fun _ _ _ _ hstart hfinish => by omega⟩
  · have hforward : before.ms ≤ now.ms := by
      cases isActive with
      | true =>
          cases hreach
          exact (Option.some.inj (hbefore.symm.trans hmoved)) ▸ le_refl _
      | false => exact (hsteady rfl).forward before hbefore
    refine ⟨now, hmoved, hforward, fun target htarget minute hdue hstart hfinish => ?_⟩
    obtain ⟨instant, hinstant, hin, hout⟩ := exists_instant_of_minute hstart hfinish
    exact ⟨⟨target.id, instant⟩, hall (mem_occurrencesBetween.mpr
      ⟨hinstant, target, htarget, rfl, hdue _ hin hout⟩), rfl, hin, hout⟩

variable {ticks : List BackupTick} {cursor : Option (Content Timestamp)} {claims : ClaimFile}

/-- No cursor on file is behind an earlier one. -/
def NotBehind (earlier later : Option Timestamp) : Prop :=
  ∀ before, earlier = some before → ∃ after, later = some after ∧ before.ms ≤ after.ms

/-- **Nothing is passed.**  Over ticks that are steady, and restarts, the cursor on file
never goes back, and no tick moves it past a minute in which a target is due without an
answer to the claim of an occurrence of that minute. -/
theorem ticks_pass_nothing
    (h : BackupTicks zone localeCompare (Steady zone) (.opened cursor claims) ticks world) :
    (∀ tick ∈ ticks, tick.PassesNothing zone) ∧
      ticks.Pairwise fun later earlier => NotBehind earlier.after later.after := by
  suffices hstrong : (∀ tick ∈ ticks, tick.PassesNothing zone) ∧
      (ticks.Pairwise fun later earlier => NotBehind earlier.after later.after) ∧
      ∀ tick ∈ ticks, NotBehind tick.after world.persistedCursor from ⟨hstrong.1, hstrong.2.1⟩
  induction h with
  | start => exact ⟨List.forall_mem_nil _, List.Pairwise.nil, List.forall_mem_nil _⟩
  | @tick ticks world world' isActive targets now hticks hsteady hreach ih =>
      obtain ⟨hpasses, hpairwise, hbehind⟩ := ih
      have htick := passesNothing_of_reach
        (cursorUnread_of_ticks (cursorUnread_opened cursor claims) hticks) hsteady hreach
      -- the tick starts where the ticks before it have left the cursor
      have hlater : ∀ tick ∈ ticks, NotBehind tick.after world'.persistedCursor := by
        intro tick hmem before hbefore
        obtain ⟨middle, hmiddle, hle⟩ := hbehind tick hmem before hbefore
        obtain ⟨after, hafter, hle', -⟩ := htick middle hmiddle
        exact ⟨after, hafter, hle.trans hle'⟩
      exact ⟨List.forall_mem_cons.mpr ⟨htick, hpasses⟩,
        List.pairwise_cons.mpr ⟨hlater, hpairwise⟩,
        List.forall_mem_cons.mpr ⟨fun before hbefore => ⟨before, hbefore, le_refl _⟩, hlater⟩⟩
  | restart _ ih => exact ih

end Passes

section Example

/-- The first tick after midnight offers the occurrence of the minute. -/
theorem ticks_pass_nothing_docs :
    ∃ ticks, BackupTicks (wallClock behindUtc) compare (Steady (wallClock behindUtc))
        (.opened none ⟨[], false⟩) ticks (ticksAt [afterMidnight 10000, afterMidnight 90000]) ∧
      (∀ tick ∈ ticks, tick.PassesNothing (wallClock behindUtc)) ∧
      (ticksAt [afterMidnight 10000, afterMidnight 90000]).offered =
        [⟨"docs", afterMidnight 10001⟩] := by
  have hfirst : BackupTicks (wallClock behindUtc) compare (Steady (wallClock behindUtc))
      (.opened none ⟨[], false⟩) _ (ticksAt [afterMidnight 10000]) :=
    .tick false [docs] (afterMidnight 10000) .start
      (fun _ => ⟨fun _ hcursor => (by cases hcursor), fun _ hcursor => (by cases hcursor),
        fun _ hcursor => (by cases hcursor)⟩)
      (reach_ticksAt [] _)
  have hcursor : (ticksAt [afterMidnight 10000]).cursor.value = some (afterMidnight 10000) ∧
      (ticksAt [afterMidnight 10000]).persistedCursor = some (afterMidnight 10000) := by
    decide +kernel
  have hsteady : Steady (wallClock behindUtc) (ticksAt [afterMidnight 10000]) [docs]
      (afterMidnight 90000) := by
    refine ⟨fun cursor h _ => ?_, fun cursor h => ?_, fun cursor h => ?_⟩
    all_goals obtain rfl := Option.some.inj (hcursor.2.symm.trans h)
    · exact hcursor.1
    · decide
    · decide +kernel
  have hsecond := hfirst.tick false [docs] (afterMidnight 90000) (fun _ => hsteady)
    (reach_ticksAt _ _)
  exact ⟨_, hsecond, (ticks_pass_nothing hsecond).1, by decide +kernel⟩

/-- A clock that goes back five seconds takes the cursor with it. -/
theorem ticks_go_back :
    ∃ ticks world, BackupTicks (wallClock behindUtc) compare (fun _ _ _ => True)
        (.opened none ⟨[], false⟩) ticks world ∧
      ¬ ∀ tick ∈ ticks, tick.PassesNothing (wallClock behindUtc) := by
  have hfirst : BackupTicks (wallClock behindUtc) compare (fun _ _ _ => True)
      (.opened none ⟨[], false⟩) _ (ticksAt [afterMidnight 10000]) :=
    .tick false [docs] (afterMidnight 10000) .start (fun _ => trivial) (reach_ticksAt [] _)
  have hsecond := hfirst.tick false [docs] (afterMidnight 5000) (fun _ => trivial)
    (reach_ticksAt _ _)
  refine ⟨_, _, hsecond, fun hpasses => ?_⟩
  have hcursors : (ticksAt [afterMidnight 10000]).persistedCursor = some (afterMidnight 10000) ∧
      (ticksAt [afterMidnight 10000, afterMidnight 5000]).persistedCursor =
        some (afterMidnight 5000) := by decide +kernel
  obtain ⟨after, hafter, hle, -⟩ := hpasses _ List.mem_cons_self _ hcursors.1
  obtain rfl := Option.some.inj (hcursors.2.symm.trans hafter)
  revert hle
  decide

end Example

end AtlasManager.Backup
