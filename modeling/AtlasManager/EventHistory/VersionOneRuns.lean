import AtlasManager.EventHistory.HistoryPaging
import AtlasManager.EventHistory.VersionOneHistory

/-!
# AtlasManager.EventHistory.VersionOneRuns

Calls to record on a file of version one.

* `recordOne_spec` -- what a call to record leaves;
* `runRecords_reads` -- **after every run** the file is read as the events that were answered, unless
  the last one of them is out of order in its attempt: then it is corrupted.
* `reconstruct_take` -- **a file that was cut off** is read up to there, or refused.
-/

namespace AtlasManager.EventHistory.VersionOne

open AtlasManager.Lib AtlasManager.Lib.Rfc8259 AtlasManager.Backup

/-! ## A call -/

/-- The content of a file that is read, also where there is none. -/
theorem getD_of_reconstruct {file : Option Text} {events : List AdministrativeEvent}
    (h : reconstruct file = .ok events) : Holds (file.getD []) events ∧ Written events := by
  cases file with
  | none =>
      rw [reconstruct, Except.ok.injEq] at h
      rw [← h]
      exact ⟨.nil, written_nil⟩
  | some content =>
      obtain ⟨hholds, -, hwritten⟩ := reconstruct_eq_ok.mp h
      exact ⟨hholds, hwritten⟩

theorem isEnded_serialized (events : List AdministrativeEvent) :
    IsEnded 0x0A (events.flatMap serializeEventLine) := by
  cases List.eq_nil_or_concat' events with
  | inl hempty => exact .inl (by rw [hempty]; rfl)
  | inr hconcat =>
      obtain ⟨front, event, rfl⟩ := hconcat
      refine .inr ?_
      rw [List.flatMap_append, List.flatMap_singleton, serializeEventLine, ← List.append_assoc,
        List.getLast?_concat]

theorem Holds.isEnded {content : Text} {events : List AdministrativeEvent} (h : Holds content events) :
    IsEnded 0x0A content := by
  have hlines := isEnded_serialized events
  rcases h with rfl | ⟨hne, rfl⟩
  · exact hlines
  · refine .inr ?_
    rw [List.getLast?_cons, hlines.resolve_left ((Holds.content_ne (.inl rfl)) hne)]
    rfl

/-- A call that succeeds appends the line of its answer. -/
structure Appends (file : Option Text) (events : List AdministrativeEvent) (event : AdministrativeEvent)
    (file' : Option Text) : Prop where
  stored : Stored event
  sequence : event.sequence = 1 + events.length
  appended : file' = some (file.getD [] ++ serializeEventLine event)
  holds : Holds (file.getD [] ++ serializeEventLine event) (events ++ [event])
  bytes : byteLength (file.getD [] ++ serializeEventLine event) ≤ maxFileBytes

/-- **A call to record** appends the line of its answer, or changes nothing. -/
theorem recordOne_spec {file : Option Text} {events : List AdministrativeEvent}
    (h : reconstruct file = .ok events) {input : AdministrativeEventInput}
    (hjs : ∀ n, IsJs (.obj (AdministrativeEvent.mk input n).fields)) :
    (∃ code, recordOne file input = (.error code, file)) ∨
      ∃ event file', recordOne file input = (.ok event, file') ∧ Appends file events event file' := by
  obtain ⟨hcontent, hwritten⟩ := getD_of_reconstruct h
  simp only [recordOne, h]
  cases hcreate : createAdministrativeEvent
      (.obj (AdministrativeEvent.mk input (events.length + 1)).fields) with
  | error code => exact .inl ⟨_, rfl⟩
  | ok event =>
      have hchecked : Checked event := ⟨_, hjs _, hcreate⟩
      have hsequence := sequence_of_created hcreate
      dsimp only
      by_cases hlong : maxLineBytes < byteLength (serializeEventLine event)
      · rw [if_pos hlong]
        exact .inl ⟨_, rfl⟩
      rw [if_neg hlong]
      by_cases hlarge : maxFileBytes < byteLength (file.getD []) + byteLength (serializeEventLine event)
      · rw [if_pos hlarge]
        exact .inl ⟨_, rfl⟩
      rw [if_neg hlarge, createAdministrativeEvent_again hchecked]
      rw [← byteLength_append hcontent.isEnded] at hlarge
      exact .inr ⟨event, _, rfl, {
        stored := ⟨hchecked, Nat.le_of_not_lt hlong⟩
        sequence := by omega
        appended := rfl
        holds := hcontent.append event
        bytes := Nat.le_of_not_lt hlarge }⟩

/-- What is read afterwards depends on the order of the attempt only. -/
theorem Appends.reconstruct {file file' : Option Text} {events : List AdministrativeEvent}
    {event : AdministrativeEvent} (h : Appends file events event file') (hwritten : Written events) :
    (InOrder (events ++ [event]) → VersionOne.reconstruct file' = .ok (events ++ [event])) ∧
      (¬ InOrder (events ++ [event]) → VersionOne.reconstruct file' = .error .corrupted) := by
  rw [h.appended]
  constructor
  · intro hinOrder
    have horder := ((inOrder_append events event).mp hinOrder).2
    exact reconstruct_eq_ok.mpr
      ⟨h.holds, h.bytes, (written_append events event).mpr ⟨hwritten, h.stored, h.sequence, horder⟩⟩
  · intro hinOrder
    have horder : outOfOrder ((ofAttempt event.attemptId events).map (·.status)) event = true := by
      by_contra hnot
      exact hinOrder ((inOrder_append events event).mpr ⟨hwritten.inOrder, Bool.not_eq_true _ ▸ hnot⟩)
    have hlast : readLines (1 + events.length) (events.foldl AttemptStatuses.set fun _ => [])
        [eventLine event] = .error .corrupted := by
      rw [readLines_singleton, readLine_eq_ok.mpr ⟨rfl, h.stored⟩]
      simp only [h.sequence, ne_eq, not_true_eq_false, if_false, foldl_set, List.nil_append, horder,
        if_true]
    rw [reconstruct_lines (by simp) h.holds h.bytes, List.map_append, List.map_singleton, readLines_append,
      readLines_eq_ok.mpr ⟨rfl, hwritten⟩]
    simp only [bind, Except.bind, hlast]

/-! ## Runs -/

/-- A file after some calls, and the events that they answered with. -/
structure VersionOneRun where
  file : Option Text
  log : List AdministrativeEvent

def VersionOneRun.advance (run : VersionOneRun) (input : { value : JsValue // IsJs value }) :
    VersionOneRun :=
  let result := record run.file input.val
  ⟨result.2, run.log ++ result.1.toOption.toList⟩

/-- Calls to record on a file that is not there at first. -/
def runRecords (inputs : List { value : JsValue // IsJs value }) : VersionOneRun :=
  inputs.foldl VersionOneRun.advance ⟨none, []⟩

/-- What a file holds after events were recorded. -/
structure VersionOneRun.Reads (run : VersionOneRun) : Prop where
  inOrder : InOrder run.log → reconstruct run.file = .ok run.log
  outOfOrder : ¬ InOrder run.log → reconstruct run.file = .error .corrupted
  before : InOrder run.log.dropLast

theorem VersionOneRun.Reads.advance {run : VersionOneRun} (h : run.Reads)
    (input : { value : JsValue // IsJs value }) : (run.advance input).Reads := by
  cases hchecked : createAdministrativeEventInput input.val with
  | error code =>
      have hsame : run.advance input = run := by
        simp [VersionOneRun.advance, record, hchecked, Except.toOption]
      rw [hsame]
      exact h
  | ok validated =>
      by_cases hinOrder : InOrder run.log
      · have hread := h.inOrder hinOrder
        have hone : Checked ⟨validated, 1⟩ := checked_of_input input.property hchecked (by decide)
        cases recordOne_spec hread (isJs_withNumber hone) with
        | inl hrefused =>
            obtain ⟨code, hrefused⟩ := hrefused
            have hsame : run.advance input = run := by
              simp [VersionOneRun.advance, record, hchecked, hrefused, Except.toOption]
            rw [hsame]
            exact h
        | inr happended =>
            obtain ⟨event, file', hrecord, happends⟩ := happended
            have hnext : run.advance input = ⟨file', run.log ++ [event]⟩ := by
              simp [VersionOneRun.advance, record, hchecked, hrecord, Except.toOption]
            have hreads := happends.reconstruct (getD_of_reconstruct hread).2
            rw [hnext]
            exact ⟨hreads.1, hreads.2, by rw [List.dropLast_concat]; exact hinOrder⟩
      · -- a file that is corrupted takes no more events
        have hsame : run.advance input = run := by
          simp [VersionOneRun.advance, record, hchecked, recordOne, h.outOfOrder hinOrder,
            Except.toOption]
        rw [hsame]
        exact h

/-- **After every run** of calls to record, the file is read as all events that were answered, if each
attempt is in turn; else it is corrupted, and the last event that was answered is the only one that is
out of turn. -/
theorem runRecords_reads (inputs : List { value : JsValue // IsJs value }) :
    (InOrder (runRecords inputs).log → reconstruct (runRecords inputs).file = .ok (runRecords inputs).log) ∧
      (¬ InOrder (runRecords inputs).log → reconstruct (runRecords inputs).file = .error .corrupted) ∧
      InOrder (runRecords inputs).log.dropLast := by
  have hreads : (runRecords inputs).Reads := by
    induction inputs using List.reverseRecOn with
    | nil => exact ⟨fun _ => rfl, fun hnot => absurd (fun _ => trivial) hnot, fun _ => trivial⟩
    | append_singleton inputs input ih =>
        rw [runRecords, List.foldl_append]
        exact VersionOneRun.Reads.advance ih input
  exact ⟨hreads.inOrder, hreads.outOfOrder, hreads.before⟩

/-! ## A file that was cut off -/

/-- The first events of a file can stand in a file, too. -/
theorem Written.front {front back : List AdministrativeEvent} (h : Written (front ++ back)) :
    Written front := by
  induction back using List.reverseRecOn with
  | nil => rwa [List.append_nil] at h
  | append_singleton back event ih =>
      rw [← List.append_assoc, written_append] at h
      exact ih h.1

/-- A text that is cut off has whole lines, and a part of the next one. -/
theorem exists_take_lines (events : List AdministrativeEvent) (n : Nat) :
    ∃ front back part, events = front ++ back ∧
      (events.flatMap serializeEventLine).take n = front.flatMap serializeEventLine ++ part ∧
      (0x0A : CodeUnit) ∉ part := by
  induction events generalizing n with
  | nil => exact ⟨[], [], [], rfl, by simp, by simp⟩
  | cons event rest ih =>
      by_cases hwithin : n ≤ (eventLine event).length
      · refine ⟨[], event :: rest, (eventLine event).take n, rfl, ?_, fun hmem => ?_⟩
        · rw [List.flatMap_cons, serializeEventLine, List.append_assoc,
            List.take_append_of_le_length hwithin]
          rfl
        · exact control_not_mem_eventLine (by decide) event (List.mem_of_mem_take hmem)
      · obtain ⟨front, back, part, hrest, htake, hpart⟩ := ih (n - (serializeEventLine event).length)
        refine ⟨event :: front, back, part, by rw [hrest]; rfl, ?_, hpart⟩
        have hlength : (serializeEventLine event).length ≤ n := by
          rw [serializeEventLine, List.length_append, List.length_singleton]
          omega
        rw [List.flatMap_cons, List.take_append, htake, List.take_of_length_le hlength, List.flatMap_cons,
          List.append_assoc]

/-- A content that is cut off holds the first events, or its text does not end with a line. -/
theorem Holds.take {content : Text} {events : List AdministrativeEvent} (h : Holds content events)
    (n : Nat) : (∃ front back, events = front ++ back ∧ Holds (content.take n) front) ∨
      content.take n ≠ [] ∧ (decodeUtf8 (content.take n)).getLast? ≠ some 0x0A := by
  have hlast : ∀ {front part : Text}, part ≠ [] → (0x0A : CodeUnit) ∉ part →
      (front ++ part).getLast? ≠ some 0x0A := by
    intro front part hne hpart
    rw [List.getLast?_append_of_ne_nil _ hne]
    exact fun hmem => hpart (List.mem_of_getLast? hmem)
  rcases h with rfl | ⟨-, rfl⟩
  · obtain ⟨front, back, part, hevents, htake, hpart⟩ := exists_take_lines events n
    by_cases hwhole : part = []
    · rw [hwhole, List.append_nil] at htake
      exact .inl ⟨front, back, hevents, .inl htake⟩
    · have hmark : ((events.flatMap serializeEventLine).take n).head? ≠ some byteOrderMark := by
        rw [List.head?_take]
        split_ifs with hzero
        · simp
        · by_cases hnone : events = []
          · simp [hnone]
          · rw [head?_serialized hnone]
            decide
      rw [decodeUtf8_of_head? hmark, htake]
      exact .inr ⟨by simp [hwhole], hlast hwhole hpart⟩
  · cases n with
    | zero => exact .inl ⟨[], events, rfl, .nil⟩
    | succ n =>
        obtain ⟨front, back, part, hevents, htake, hpart⟩ := exists_take_lines events n
        rw [List.take_succ_cons, decodeUtf8_mark, htake]
        by_cases hwhole : part = []
        · by_cases hnone : front = []
          · -- only the mark is left
            rw [hwhole, hnone]
            exact .inr ⟨by simp, by simp⟩
          · rw [hwhole, List.append_nil]
            exact .inl ⟨front, back, hevents, .inr ⟨hnone, rfl⟩⟩
        · exact .inr ⟨by simp, hlast hwhole hpart⟩

/-- **A file that was cut off** anywhere is read as its first events, where it was cut off behind a
line, and is refused else. -/
theorem reconstruct_take {content : Text} {events : List AdministrativeEvent}
    (h : VersionOne.reconstruct (some content) = .ok events) (n : Nat) :
    (∃ front back, events = front ++ back ∧ Holds (content.take n) front ∧
        VersionOne.reconstruct (some (content.take n)) = .ok front) ∨
      (¬ IsEnded 0x0A (content.take n) ∧
        VersionOne.reconstruct (some (content.take n)) = .error .corrupted) := by
  obtain ⟨hholds, hbytes, hwritten⟩ := reconstruct_eq_ok.mp h
  have hshort : byteLength (content.take n) ≤ maxFileBytes := by
    have hle := byteLength_le_append (content.take n) (content.drop n)
    rw [List.take_append_drop] at hle
    omega
  rcases hholds.take n with ⟨front, back, hevents, hfront⟩ | ⟨hne, hlast⟩
  · rw [hevents] at hwritten
    exact .inl ⟨front, back, hevents, hfront, reconstruct_eq_ok.mpr ⟨hfront, hshort, hwritten.front⟩⟩
  · refine .inr ⟨fun hended => hended.elim hne fun hend => ?_, ?_⟩
    · exact hlast ((getLast?_decodeUtf8 (by decide)).mpr hend)
    · simp only [VersionOne.reconstruct]
      rw [if_neg (Nat.not_lt.mpr hshort), if_neg hne, if_pos (.inr (.inl hlast))]

/-! ### A line that was cut off -/

def wakeAlarmStarted : AdministrativeEvent :=
  { wakeAlarmCancelled with status := .started, details := none }

theorem checked_wakeAlarmStarted : Checked wakeAlarmStarted := by
  have hjs := isJs_of_isWritable (isWritable_fields checked_wakeAlarmCancelled)
  obtain ⟨-, hsequence, -, hattempt, hattemptId, hoccurred, hoccurredAt, hsource, hsourceValue, htarget,
    htargetValue, hoperation, hoperationValue, hstatus, -⟩ := hjs
  have hstarted : ∀ text ∈ ["started"], IsUnits text := isUnits_of_all (by decide)
  exact ⟨.obj wakeAlarmStarted.fields, ⟨by decide, hsequence, trivial, hattempt, hattemptId, hoccurred,
    hoccurredAt, hsource, hsourceValue, htarget, htargetValue, hoperation, hoperationValue, hstatus,
    hstarted "started" (.head _), trivial⟩, by decide⟩

set_option maxRecDepth 20000 in
theorem stored_wakeAlarmStarted : Stored wakeAlarmStarted where
  checked := checked_wakeAlarmStarted
  short := by decide

theorem reads_wakeAlarmStarted :
    VersionOne.reconstruct (some (serializeEventLine wakeAlarmStarted)) = .ok [wakeAlarmStarted] := by
  have hbytes := stored_wakeAlarmStarted.short.trans (show maxLineBytes ≤ maxFileBytes by decide)
  exact reconstruct_eq_ok.mpr ⟨.inl (List.flatMap_singleton ..).symm, hbytes,
    (written_append [] wakeAlarmStarted).mpr ⟨written_nil, stored_wakeAlarmStarted, rfl, rfl⟩⟩

/-- What is read of the first units of this line. -/
theorem reconstruct_take_wakeAlarmStarted :
    (∃ front back, [wakeAlarmStarted] = front ++ back ∧
        Holds ((serializeEventLine wakeAlarmStarted).take 40) front ∧
        VersionOne.reconstruct (some ((serializeEventLine wakeAlarmStarted).take 40)) = .ok front) ∨
      (¬ IsEnded 0x0A ((serializeEventLine wakeAlarmStarted).take 40) ∧
        VersionOne.reconstruct (some ((serializeEventLine wakeAlarmStarted).take 40)) =
          .error .corrupted) :=
  reconstruct_take reads_wakeAlarmStarted 40

end AtlasManager.EventHistory.VersionOne
