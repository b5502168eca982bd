import AtlasManager.EventHistory.HistoryQuery
import AtlasManager.EventHistory.HistoryRuns
import AtlasManager.EventHistory.RecordLength
import AtlasManager.Lib.Paging

/-!
# AtlasManager.EventHistory.HistoryPaging

What a reader has seen that has followed the pages of a request to the last one.

* `queryOne_kept`, `query_runHistory` -- a page is the first events that match behind a number;
* `pages_runHistory` -- **all pages together** are the events that match, each once and in order,
  whatever was written in between;
* `exists_pages` -- a reader that is not behind the retained events gets to the last page.
-/

namespace AtlasManager.EventHistory

open AtlasManager.Lib AtlasManager.Lib.Rfc8259 AtlasManager.Backup

variable {sha256 : Text → String} {limits : HistoryLimits}

/-! ## Events of records -/

/-- An event with the same number and the same fields, up to the order of those in its details. -/
structure SameEvent (event other : AdministrativeEvent) : Prop where
  sequence : other.sequence = event.sequence
  same : SameJson (.obj other.fields) (.obj event.fields)

theorem text_of_lookup {a b : Fields} {name s t : String} (ha : (a.map Prod.fst).Nodup)
    (hb : (b.map Prod.fst).Nodup) (h : SameJson (.obj a) (.obj b)) (hs : a.lookup name = some (.str s))
    (ht : b.lookup name = some (.str t)) : s = t := by
  have hlookup := (sameJson_obj ha hb).mp h name
  rw [hs, ht] at hlookup
  exact JsValue.str.inj (Option.some.inj hlookup)

theorem kind_of_text {a b : AdministrativeEventSourceKind} (h : a.text = b.text) : a = b := by
  cases a <;> cases b <;> first | rfl | exact absurd h (by decide)

/-- Events with the same fields pass the same filters. -/
theorem SameEvent.admits {event other : AdministrativeEvent} (h : SameEvent event other)
    (query : AdministrativeEventHistoryQuery) :
    query.admits other.toAdministrativeEventInput = query.admits event.toAdministrativeEventInput := by
  obtain ⟨hoperation, hstatus, -⟩ := operation_of_sameJson h.same
  have hattempt : other.attemptId = event.attemptId :=
    text_of_lookup other.nodup_names_fields event.nodup_names_fields h.same other.lookup_fields.2.1
      event.lookup_fields.2.1
  have htime : other.occurredAt = event.occurredAt :=
    text_of_lookup other.nodup_names_fields event.nodup_names_fields h.same other.lookup_fields.2.2.1
      event.lookup_fields.2.2.1
  have hkind : other.source.kind = event.source.kind := by
    have hlookup := (sameJson_obj other.nodup_names_fields event.nodup_names_fields).mp h.same "source"
    rw [other.lookup_fields.2.2.2.1, event.lookup_fields.2.2.2.1] at hlookup
    have hsource : (sourceFields other.source).lookup "kind" = some (.str other.source.kind.text) :=
      rfl
    exact kind_of_text (text_of_lookup (nodup_sourceFields _) (nodup_sourceFields _)
      (Option.some.inj hlookup) hsource rfl)
  simp only [AdministrativeEventHistoryQuery.admits, hoperation, hstatus, hattempt, htime, hkind]

theorem RecordOf.sameEvent {event : AdministrativeEvent} {record : EventHistoryRecord}
    (h : RecordOf event record) (hvalid : record.Valid sha256) : SameEvent event record.event :=
  ⟨by rw [hvalid.sequence, h.sequence], h.same⟩

theorem forall₂_sameEvent {events : List AdministrativeEvent} {records : List EventHistoryRecord}
    (h : List.Forall₂ RecordOf events records) (hvalid : ∀ record ∈ records, record.Valid sha256) :
    List.Forall₂ SameEvent events (records.map EventHistoryRecord.event) := by
  rw [List.forall₂_map_right_iff, List.forall₂_iff_get]
  obtain ⟨hlength, hget⟩ := List.forall₂_iff_get.mp h
  exact ⟨hlength, fun i hi hi' => (hget i hi hi').sameEvent (hvalid _ (List.get_mem _ _))⟩

/-- The events that match behind a number. -/
def matchesBehind (query : AdministrativeEventHistoryQuery) (after : Nat)
    (events : List AdministrativeEvent) : List AdministrativeEvent :=
  pastCursor (·.sequence) (fun event => query.admits event.toAdministrativeEventInput) after events

/-- The same of the same events match. -/
theorem forall₂_matchesBehind {events others : List AdministrativeEvent}
    (h : List.Forall₂ SameEvent events others) (query : AdministrativeEventHistoryQuery) (after : Nat) :
    List.Forall₂ SameEvent (matchesBehind query after events) (matchesBehind query after others) := by
  refine forall₂_filter h (fun event other hpair => ?_) fun event other hpair _ => hpair
  show (query.admits event.toAdministrativeEventInput && decide (after < event.sequence)) =
    (query.admits other.toAdministrativeEventInput && decide (after < other.sequence))
  rw [hpair.admits, hpair.sequence]

/-! ## The numbers of linked records -/

section Linked

variable {previous : String} {first : Nat} {records : List EventHistoryRecord}

theorem Linked.event_sequences (h : Linked sha256 previous first records) :
    (records.map EventHistoryRecord.event).map (·.sequence) = List.range' first records.length := by
  rw [← h.sequences, List.map_map]
  exact List.map_congr_left fun record hrecord => (h.valid record hrecord).sequence

theorem Linked.events_sorted (h : Linked sha256 previous first records) :
    (records.map EventHistoryRecord.event).Pairwise fun a b => a.sequence < b.sequence := by
  have hsorted : ((records.map EventHistoryRecord.event).map (·.sequence)).Pairwise (· < ·) := by
    rw [h.event_sequences]
    exact List.pairwise_lt_range'
  exact List.pairwise_map.mp hsorted

theorem Linked.sequence_mem (h : Linked sha256 previous first records) {event : AdministrativeEvent}
    (hevent : event ∈ records.map EventHistoryRecord.event) :
    first ≤ event.sequence ∧ event.sequence < first + records.length := by
  have hmem := List.mem_map_of_mem (f := AdministrativeEvent.sequence) hevent
  rw [h.event_sequences, List.mem_range'_1] at hmem
  exact hmem

end Linked

/-! ## A page -/

theorem checkEvents_checked {events : List AdministrativeEvent} (h : ∀ event ∈ events, Checked event) :
    checkEvents events = .ok events := by
  induction events with
  | nil => rfl
  | cons event rest ih =>
      rw [List.forall_mem_cons] at h
      rw [checkEvents, createAdministrativeEvent_again h.1]
      simp only [ih h.2]
      rfl

section Page

variable {policy : EventHistoryRetentionPolicy} {disk : Option Root}
  {all removed : List EventHistoryRecord} {state : Reconstruction}

/-- The page that a reader gets of the events that match. -/
def pageOf (query : AdministrativeEventHistoryQuery) (after : Nat) (events : List AdministrativeEvent) :
    AdministrativeEventHistoryPage where
  events := (matchesBehind query after events).take query.limit
  hasMore := query.limit < (matchesBehind query after events).length
  nextAfterSequence := ((matchesBehind query after events).take query.limit).getLast?.map (·.sequence)

/-- **A page** is the first events that match behind a number, unless events behind it were removed. -/
theorem queryOne_kept (hreads : ReadsLast sha256 limits disk all removed state)
    (query : AdministrativeEventHistoryQuery) (after : Nat) :
    queryOne sha256 limits disk { query with afterSequence := after } =
      if 0 < after ∧ after < removed.length then .error (.history .historyPruned)
      else .ok (pageOf query after state.events) := by
  have hchecked : ∀ event ∈ (matchesBehind query after state.events).take query.limit,
      Checked event := by
    intro event hevent
    have hmem := (mem_pastCursor.mp (List.mem_of_mem_take hevent)).1
    obtain ⟨record, hrecord, rfl⟩ := List.mem_map.mp hmem
    exact ((retained_of_reconstruct hreads.reads).linked.valid record hrecord).checked
  have hearliest := hreads.earliest
  simp only [queryOne, hreads.reads, hearliest, Nat.add_sub_cancel, Bool.and_eq_true, decide_eq_true_eq]
  by_cases hbehind : 0 < after ∧ after < removed.length
  · rw [if_pos hbehind, if_pos hbehind]
  · rw [if_neg hbehind, if_neg hbehind]
    show createAdministrativeEventHistoryPage ((matchesBehind query after state.events).take query.limit)
      (decide (query.limit < (matchesBehind query after state.events).length)) = _
    rw [createAdministrativeEventHistoryPage, checkEvents_checked hchecked]
    rfl

/-- What matches of the retained events is what matches of all that were ever recorded. -/
theorem matchesBehind_all (hlinked : Linked sha256 genesisHash 1 all)
    (hreads : ReadsLast sha256 limits disk all removed state) (query : AdministrativeEventHistoryQuery)
    (after : Nat) :
    matchesBehind query after state.events =
      matchesBehind query (max after removed.length) (all.map EventHistoryRecord.event) := by
  have hretained := (retained_of_reconstruct hreads.reads).linked
  have hfront : ∀ event ∈ removed.map EventHistoryRecord.event,
      event.sequence ≤ max after removed.length := by
    intro event hevent
    obtain ⟨i, hi, hget⟩ := List.mem_iff_getElem.mp hevent
    have hnumbers := hlinked.event_sequences
    rw [hreads.all_eq, List.map_append, List.map_append] at hnumbers
    have hnumber := congrArg (·[i]?) hnumbers
    rw [List.length_map] at hi
    simp only [List.getElem?_append_left, List.length_map, hi, List.getElem?_map,
      List.getElem?_eq_getElem hi, Option.map_some, List.length_append] at hnumber
    rw [List.getElem?_range' (by omega), Option.some.injEq] at hnumber
    rw [List.getElem_map] at hget
    rw [← hget, hnumber]
    omega
  rw [matchesBehind, matchesBehind, hreads.all_eq, List.map_append, pastCursor_append,
    pastCursor_eq_nil hfront,
    List.nil_append]
  by_cases hle : removed.length ≤ after
  · rw [max_eq_left hle]
    rfl
  · -- every retained event stands behind those that were removed
    rw [max_eq_right (by omega)]
    refine pastCursor_congr fun event hevent => ?_
    have hbounds := hretained.sequence_mem hevent
    rw [hreads.expectedSequence] at hbounds
    omega

end Page

/-- **A call to query** is answered after every run: it gets a page where its input passes the check,
unless events behind the number it asks from were removed. -/
theorem query_runHistory (hsha256 : ∀ text, isSha256 (sha256 text) = true) (hlimits : limits.Valid)
    (calls : List (Timestamp × HistoryCall)) (input : JsValue) :
    ∃ state, reconstruct sha256 limits (runHistory sha256 limits calls).disk = .ok state ∧
      query sha256 limits (runHistory sha256 limits calls).disk input =
        match createAdministrativeEventHistoryQuery input with
        | .error code => .error (.inl code)
        | .ok checked =>
          if 0 < checked.afterSequence ∧
              checked.afterSequence < state.earliestRetainedSequence - 1 then
            .error (.inr (.history .historyPruned))
          else .ok (pageOf checked checked.afterSequence state.events) := by
  obtain ⟨removed, all, hkept, -⟩ := kept_runHistory hsha256 hlimits calls
  obtain ⟨state, hreads⟩ := hkept.readsLast
  refine ⟨state, hreads.reads, ?_⟩
  rw [query, hreads.earliest, Nat.add_sub_cancel]
  cases createAdministrativeEventHistoryQuery input with
  | error code => rfl
  | ok checked =>
      have hpage := queryOne_kept hreads checked checked.afterSequence
      dsimp only at hpage ⊢
      rw [hpage]
      split_ifs <;> rfl

/-! ## Readers -/

section Readers

variable {query : AdministrativeEventHistoryQuery}

/-- What a reader has seen of all the records there are at its last request. -/
theorem Pages.events_eq (hsha256 : ∀ text, isSha256 (sha256 text) = true) (hlimits : limits.Valid)
    {policy : EventHistoryRetentionPolicy} {run start stop : HistoryRun} {after : Nat}
    {events : List AdministrativeEvent} {gone all : List EventHistoryRecord}
    (h : Pages sha256 limits query run after events start stop)
    (hkept : Kept sha256 limits policy run.disk gone all) (hlog : List.Forall₂ RecordOf run.log all)
    (hgone : gone.length = run.removed) :
    ∃ between more removed state, ReadsLast sha256 limits start.disk (all ++ between) removed state ∧
      Linked sha256 genesisHash 1 (all ++ between ++ more) ∧
      List.Forall₂ RecordOf stop.log (all ++ between ++ more) ∧
      (0 < after → removed.length ≤ after) ∧
      events = matchesBehind query (max after removed.length)
        ((all ++ between ++ more).map EventHistoryRecord.event) := by
  induction h generalizing policy gone all with
  | @last run after calls page asked done =>
      obtain ⟨removed, between, hkept', hlog', hremoved⟩ :=
        hkept.after hsha256 hlimits hlog hgone calls
      obtain ⟨state, hreads⟩ := hkept'.readsLast
      rw [queryOne_kept hreads] at asked
      split_ifs at asked with hbehind
      obtain rfl := Except.ok.inj asked
      have hwhole : (matchesBehind query after state.events).length ≤ query.limit := by
        simpa [pageOf] using done
      refine ⟨between, [], removed, state, hreads, ?_⟩
      rw [List.append_nil, ← matchesBehind_all hkept'.linked hreads]
      exact ⟨hkept'.linked, hlog', by omega, List.take_of_length_le hwhole⟩
  | @more run start stop after next events calls page asked goesOn cursor rest ih =>
      obtain ⟨removed, between, hkept', hlog', hremoved⟩ :=
        hkept.after hsha256 hlimits hlog hgone calls
      obtain ⟨state, hreads⟩ := hkept'.readsLast
      rw [queryOne_kept hreads] at asked
      split_ifs at asked with hbehind
      obtain rfl := Except.ok.inj asked
      obtain ⟨item, hitem, hnext⟩ := Option.map_eq_some_iff.mp cursor
      obtain ⟨between', more, removed', state', -, hlinked, hlast, hfloor, hevents⟩ :=
        ih hkept' hlog' hremoved
      -- the next request asks from behind the last event of this page, which is retained or was seen
      rw [matchesBehind_all hkept'.linked hreads] at hitem
      have hmem := (mem_pastCursor.mp (List.mem_of_mem_take (List.mem_of_getLast? hitem))).1
      have hpos : 0 < next := by
        have hbounds := hkept'.linked.sequence_mem hmem
        omega
      rw [max_eq_left (hfloor hpos)] at hevents
      have hassoc : all ++ between ++ between' ++ more = all ++ between ++ (between' ++ more) :=
        List.append_assoc ..
      rw [hassoc] at hlinked hlast hevents
      refine ⟨between, between' ++ more, removed, state, hreads, hlinked, hlast, by omega, ?_⟩
      have hsorted := hlinked.events_sorted
      rw [List.map_append] at hsorted hevents ⊢
      rw [hevents, ← hnext, pageOf]
      dsimp only
      rw [matchesBehind_all hkept'.linked hreads]
      exact (pastCursor_page hsorted hitem).symm

/-- **All pages together**, up to the last one, are the events that match, each of them once and in
order, of all events that are recorded by the last request; they begin behind the number that was
asked for, or with the first event that was retained at the first request. -/
theorem pages_runHistory (hsha256 : ∀ text, isSha256 (sha256 text) = true) (hlimits : limits.Valid)
    {calls : List (Timestamp × HistoryCall)} {start stop : HistoryRun}
    {events : List AdministrativeEvent}
    (h : Pages sha256 limits query (runHistory sha256 limits calls) query.afterSequence events start stop) :
    ∃ state, reconstruct sha256 limits start.disk = .ok state ∧
      List.Forall₂ SameEvent
        (stop.log.filter fun event => matchesQuery event { query with
          afterSequence := max query.afterSequence (state.earliestRetainedSequence - 1) })
        events := by
  obtain ⟨gone, all, hkept, hlog, hgone⟩ := kept_runHistory hsha256 hlimits calls
  obtain ⟨between, more, removed, state, hreads, hlinked, hlast, -, hevents⟩ :=
    h.events_eq hsha256 hlimits hkept hlog hgone
  refine ⟨state, hreads.reads, ?_⟩
  rw [hevents, hreads.earliest, Nat.add_sub_cancel]
  exact forall₂_matchesBehind (forall₂_sameEvent hlast hlinked.valid) query _

/-- From a directory that is read, a reader gets to the last page. -/
theorem exists_pages_of_readsLast {run : HistoryRun} {all removed : List EventHistoryRecord}
    {state : Reconstruction} (hreads : ReadsLast sha256 limits run.disk all removed state)
    (hlimit : 1 ≤ query.limit) {after : Nat} (hretained : after = 0 ∨ removed.length ≤ after) :
    ∃ events, Pages sha256 limits query run after events run run := by
  have hlinked := (retained_of_reconstruct hreads.reads).linked
  have hsorted := hlinked.events_sorted
  -- by the number of events that are left to be seen
  induction hleft : (matchesBehind query after state.events).length using Nat.strong_induction_on
    generalizing after with
  | _ left ih =>
      have hasked : queryOne sha256 limits (run.after sha256 limits []).disk
          { query with afterSequence := after } = .ok (pageOf query after state.events) := by
        have hpage := queryOne_kept hreads query after
        rwa [if_neg (by omega)] at hpage
      by_cases hmore : query.limit < left
      · have hne : (matchesBehind query after state.events).take query.limit ≠ [] := by
          rw [← List.length_pos_iff, List.length_take]
          omega
        have hlast := List.getLast?_eq_some_getLast hne
        have hmem := (mem_pastCursor.mp (List.mem_of_mem_take (List.mem_of_getLast? hlast))).1
        have hbounds := hlinked.sequence_mem hmem
        rw [hreads.expectedSequence] at hbounds
        have hrest : (matchesBehind query after state.events).drop query.limit =
            matchesBehind query
              (((matchesBehind query after state.events).take query.limit).getLast hne).sequence
              state.events :=
          eq_pastCursor_of_append hsorted
            (List.take_append_drop query.limit (matchesBehind query after state.events)).symm hlast
        have hfewer := congrArg List.length hrest
        rw [List.length_drop, hleft] at hfewer
        obtain ⟨events, hpages⟩ := ih _ (by omega) (.inr (by omega)) hfewer.symm
        refine ⟨_, .more [] hasked ?_ ?_ hpages⟩
        · rw [pageOf, hleft]
          exact decide_eq_true hmore
        · rw [pageOf, hlast]
          rfl
      · refine ⟨_, .last [] hasked ?_⟩
        rw [pageOf, hleft]
        exact decide_eq_false hmore

/-- **A reader gets to the last page**, where it does not ask from behind events that were removed. -/
theorem exists_pages (hsha256 : ∀ text, isSha256 (sha256 text) = true) (hlimits : limits.Valid)
    (calls : List (Timestamp × HistoryCall)) (hlimit : 1 ≤ query.limit) {state : Reconstruction}
    (hstate : reconstruct sha256 limits (runHistory sha256 limits calls).disk = .ok state)
    (hretained : query.afterSequence = 0 ∨ state.earliestRetainedSequence ≤ query.afterSequence + 1) :
    ∃ events, Pages sha256 limits query (runHistory sha256 limits calls) query.afterSequence events
      (runHistory sha256 limits calls) (runHistory sha256 limits calls) := by
  obtain ⟨removed, all, hkept, -⟩ := kept_runHistory hsha256 hlimits calls
  obtain ⟨state', hreads⟩ := hkept.readsLast
  have hread := hreads.reads
  rw [hstate, Except.ok.injEq] at hread
  rw [hread, hreads.earliest] at hretained
  exact exists_pages_of_readsLast hreads hlimit (hretained.imp_right Nat.le_of_succ_le_succ)

end Readers

/-! ### Pages of one event each -/

/-- A request for all events, one on a page. -/
def oneByOne : AdministrativeEventHistoryQuery := ⟨0, 1, none, none, none, none, none, none⟩

theorem runHistory_append (calls : List (Timestamp × HistoryCall)) (timed : Timestamp × HistoryCall) :
    runHistory sha256 limits (calls ++ [timed]) =
      (runHistory sha256 limits calls).advance sha256 limits timed := by
  rw [runHistory, HistoryRun.after, List.foldl_append]
  rfl

theorem after_recordWakeAlarm (calls : List (Timestamp × HistoryCall)) :
    (runHistory sha256 limits calls).after sha256 limits [recordWakeAlarm] =
      runHistory sha256 limits (calls ++ [recordWakeAlarm]) := by
  rw [runHistory_append]
  rfl

theorem log_rotate (run : HistoryRun) (now : Timestamp) :
    (run.advance sha256 limits (now, .rotate)).log = run.log := List.append_nil run.log

/-- Neither call removes anything. -/
theorem removed_recordAndRotate : (runHistory sha256 limits recordAndRotate).removed = 0 := by
  have hcalls : recordAndRotate = [] ++ [recordWakeAlarm] ++ [(exportInstant, .rotate)] := rfl
  rw [hcalls, runHistory_append, runHistory_append]
  rfl

theorem removed_recordWakeAlarm (calls : List (Timestamp × HistoryCall)) :
    (runHistory sha256 limits (calls ++ [recordWakeAlarm])).removed =
      (runHistory sha256 limits calls).removed := by
  rw [runHistory_append]
  rfl

theorem recovered_record_none {now : Timestamp} {attemptId : String} {disk : Option Root}
    {input : JsValue} : (record sha256 limits now attemptId none disk input).recovered = none := by
  unfold record
  split
  · rfl
  · unfold recordOne
    dsimp only
    split
    · rfl
    · unfold appendLast
      split <;> rfl

theorem isSha256_of_reconstruct {disk : Option Root} {state : Reconstruction}
    (h : reconstruct sha256 limits disk = .ok state) : isSha256 state.lastRecordSha256 = true := by
  cases disk with
  | none =>
      rw [reconstruct, Except.ok.injEq] at h
      rw [← h]
      exact isSha256_genesisHash
  | some root => exact isSha256_lastRecord (reconstruct_eq_ok.mp h)

theorem createInput_wakeAlarm : createAdministrativeEventInput (.obj wakeAlarmCancelled.fields.tail) =
    .ok wakeAlarmCancelled.toAdministrativeEventInput := by decide

theorem stored_wakeAlarmCancelled {n : Nat} (h : n ∈ [1, 2, 3]) :
    VersionOne.Stored { wakeAlarmCancelled with sequence := n } where
  checked := checked_of_input isJs_wakeAlarmInput createInput_wakeAlarm (by
    simp only [List.mem_cons, List.not_mem_nil, or_false] at h
    omega)
  short := by
    simp only [List.mem_cons, List.not_mem_nil, or_false] at h
    rcases h with rfl | rfl | rfl
    · decide +kernel
    · decide +kernel
    · decide +kernel

/-- The event is recorded once more. -/
theorem log_recordWakeAlarm {calls : List (Timestamp × HistoryCall)} {n : Nat}
    (hlength : (runHistory textDigest defaultLimits calls).log.length = n)
    (hstored : VersionOne.Stored { wakeAlarmCancelled with sequence := n + 1 }) :
    (runHistory textDigest defaultLimits (calls ++ [recordWakeAlarm])).log =
      (runHistory textDigest defaultLimits calls).log ++
        [{ wakeAlarmCancelled with sequence := n + 1 }] := by
  subst hlength
  obtain ⟨state, hstate, hrecord⟩ := record_runHistory isSha256_textDigest valid_defaultLimits calls
    exportInstant "11111111-1111-4111-8111-111111111111" none isJs_wakeAlarmInput
    { wakeAlarmCancelled with sequence := (runHistory textDigest defaultLimits calls).log.length + 1 }
  obtain ⟨written, hwritten, hevent, -, hvalid⟩ := createNextEventHistoryRecord_valid
    isSha256_textDigest hstored.checked (isSha256_of_reconstruct hstate)
  have hsafe := hvalid.sequence_bounds
  rw [← hvalid.sequence, hevent] at hsafe
  have hanswer := hrecord.mpr ⟨createInput_wakeAlarm, rfl, written, hsafe.2, hwritten,
    short_of_stored hstored hvalid hevent⟩
  have hlog : ((runHistory textDigest defaultLimits calls).advance textDigest defaultLimits
      recordWakeAlarm).log = (runHistory textDigest defaultLimits calls).log ++
        (record textDigest defaultLimits exportInstant "11111111-1111-4111-8111-111111111111" none
          (runHistory textDigest defaultLimits calls).disk
          (.obj wakeAlarmCancelled.fields.tail)).appended := rfl
  rw [runHistory_append, hlog, RecordResult.appended, recovered_record_none, hanswer]
  rfl

/-- A reader whose first request comes after some calls. -/
theorem Pages.earlier {query : AdministrativeEventHistoryQuery} {run start stop : HistoryRun}
    {after : Nat} {events : List AdministrativeEvent} {calls : List (Timestamp × HistoryCall)}
    (h : Pages sha256 limits query (run.after sha256 limits calls) after events start stop) :
    Pages sha256 limits query run after events start stop := by
  have happend : ∀ calls', (run.after sha256 limits calls).after sha256 limits calls' =
      run.after sha256 limits (calls ++ calls') := fun calls' => List.foldl_append.symm
  cases h with
  | last calls' asked done =>
      rw [happend] at asked ⊢
      exact .last _ asked done
  | more calls' asked goesOn cursor rest =>
      rw [happend] at asked rest ⊢
      exact .more _ asked goesOn cursor rest

/-- Two events, and a third one. -/
theorem length_recorded :
    (runHistory textDigest defaultLimits (recordAndRotate ++ [recordWakeAlarm])).log.length = 2 ∧
    (runHistory textDigest defaultLimits
      (recordAndRotate ++ [recordWakeAlarm] ++ [recordWakeAlarm])).log.length = 3 := by
  have hnone : (runHistory textDigest defaultLimits []).log = [] := rfl
  have hfirst : (runHistory textDigest defaultLimits ([] ++ [recordWakeAlarm])).log.length = 1 := by
    rw [log_recordWakeAlarm (congrArg List.length hnone) (stored_wakeAlarmCancelled (by decide)), hnone]
    rfl
  have hcalls : recordAndRotate = [] ++ [recordWakeAlarm] ++ [(exportInstant, .rotate)] := rfl
  have hsealed : (runHistory textDigest defaultLimits recordAndRotate).log.length = 1 := by
    rw [hcalls, runHistory_append, log_rotate, hfirst]
  have htwo : (runHistory textDigest defaultLimits (recordAndRotate ++ [recordWakeAlarm])).log.length =
      2 := by
    rw [log_recordWakeAlarm hsealed (stored_wakeAlarmCancelled (by decide)), List.length_append, hsealed]
    rfl
  refine ⟨htwo, ?_⟩
  rw [log_recordWakeAlarm htwo (stored_wakeAlarmCancelled (by decide)), List.length_append, htwo]
  rfl

/-- Of two events the first is on the first page, and the reader goes on behind it after some calls. -/
theorem exists_pages_oneByOne {run : HistoryRun} {calls calls' : List (Timestamp × HistoryCall)}
    {all all' : List EventHistoryRecord} {state state' : Reconstruction}
    (hlinked : Linked sha256 genesisHash 1 all) (hlength : all.length = 2)
    (hreads : ReadsLast sha256 limits (run.after sha256 limits calls).disk all [] state)
    (hreads' : ReadsLast sha256 limits
      ((run.after sha256 limits calls).after sha256 limits calls').disk all' [] state') :
    ∃ events, Pages sha256 limits oneByOne run 0 events (run.after sha256 limits calls)
      ((run.after sha256 limits calls).after sha256 limits calls') := by
  have hlimit : 1 ≤ oneByOne.limit := by decide
  obtain ⟨first, second, rfl⟩ := List.length_eq_two.mp hlength
  have hsequences : [first.sequence, second.sequence] = [1, 2] := hlinked.sequences
  simp only [List.cons.injEq, and_true] at hsequences
  have hfirst := (hlinked.valid first (.head _)).sequence
  have hsecond := (hlinked.valid second (.tail _ (.head _))).sequence
  have hmatches : matchesBehind oneByOne 0 state.events = [first.event, second.event] := by
    rw [matchesBehind_all hlinked hreads]
    simp [matchesBehind, pastCursor, AdministrativeEventHistoryQuery.admits, oneByOne, hfirst, hsecond,
      hsequences]
  have hasked := queryOne_kept hreads oneByOne 0
  rw [if_neg (by omega)] at hasked
  obtain ⟨events, hrest⟩ := exists_pages_of_readsLast hreads' hlimit (.inr (Nat.zero_le 1))
  refine ⟨_, .more calls hasked ?_ ?_ hrest.earlier⟩
  · rw [pageOf, hmatches]
    rfl
  · rw [pageOf, hmatches]
    exact congrArg some (hfirst.trans hsequences.1)

/-- A reader asks after two events were recorded, and asks for the next page after a third one. -/
theorem pages_recordAndRotate :
    ∃ events start stop, Pages textDigest defaultLimits oneByOne
        (runHistory textDigest defaultLimits recordAndRotate) 0 events start stop ∧
      start.log.length = 2 ∧ stop.log.length = 3 ∧
      ∃ state, reconstruct textDigest defaultLimits start.disk = .ok state ∧
        List.Forall₂ SameEvent
          (stop.log.filter fun event => matchesQuery event { oneByOne with
            afterSequence := max 0 (state.earliestRetainedSequence - 1) })
          events := by
  obtain ⟨htwo, hthree⟩ := length_recorded
  obtain ⟨removed, all, hkept, hlog, hremoved⟩ := kept_runHistory isSha256_textDigest
    valid_defaultLimits (recordAndRotate ++ [recordWakeAlarm])
  obtain ⟨removed', all', hkept', -, hremoved'⟩ := kept_runHistory isSha256_textDigest
    valid_defaultLimits (recordAndRotate ++ [recordWakeAlarm] ++ [recordWakeAlarm])
  obtain ⟨state, hreads⟩ := hkept.readsLast
  obtain ⟨state', hreads'⟩ := hkept'.readsLast
  have hlength := hlog.length_eq.symm.trans htwo
  rw [removed_recordWakeAlarm, removed_recordAndRotate, List.length_eq_zero_iff] at hremoved
  rw [removed_recordWakeAlarm, removed_recordWakeAlarm, removed_recordAndRotate,
    List.length_eq_zero_iff] at hremoved'
  rw [hremoved, ← after_recordWakeAlarm] at hreads
  rw [hremoved', ← after_recordWakeAlarm, ← after_recordWakeAlarm] at hreads'
  obtain ⟨events, hpages⟩ := exists_pages_oneByOne hkept.linked hlength hreads hreads'
  have hseen := pages_runHistory isSha256_textDigest valid_defaultLimits hpages
  rw [after_recordWakeAlarm, after_recordWakeAlarm] at hpages hseen
  exact ⟨events, _, _, hpages, htwo, hthree, hseen⟩

/-- A reader of three events gets to the third page. -/
theorem exists_pages_recordAndRotate :
    let run := runHistory textDigest defaultLimits
      (recordAndRotate ++ [recordWakeAlarm] ++ [recordWakeAlarm])
    run.log.length = 3 ∧ ∃ events, Pages textDigest defaultLimits oneByOne run 0 events run run := by
  obtain ⟨removed, all, hkept, -⟩ := kept_runHistory isSha256_textDigest valid_defaultLimits
    (recordAndRotate ++ [recordWakeAlarm] ++ [recordWakeAlarm])
  obtain ⟨state, hreads⟩ := hkept.readsLast
  have hlimit : 1 ≤ oneByOne.limit := by decide
  exact ⟨length_recorded.2, exists_pages isSha256_textDigest valid_defaultLimits _ hlimit hreads.reads
    (.inl rfl)⟩

end AtlasManager.EventHistory
