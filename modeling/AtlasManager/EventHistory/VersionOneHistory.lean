import AtlasManager.EventHistory.HistoryQuery

/-!
# AtlasManager.EventHistory.VersionOneHistory

The history of version one: one file with a line for each event.

* `VersionOne.reconstruct` -- a file is read line by line, with the statuses of each attempt in order,
  behind the byte order mark that the decoder drops;
* `VersionOne.record`, `VersionOne.queryOne` -- events are appended, and asked for in pages;
* `VersionOne.Written` -- the events that a file can hold;
* `VersionOne.reconstruct_eq_ok` -- **canonical**: what is read is exactly what is written of such
  events.
-/

namespace AtlasManager.EventHistory

open AtlasManager.Lib AtlasManager.Lib.Rfc8259 AtlasManager.Backup
open AtlasManager.Config (jsonParse jsonParse_eq_some)

namespace VersionOne

/-! ## The file -/

def maxLineBytes : Nat := 8192

def maxFileBytes : Nat := 16 * 1024 * 1024

inductive FileAdministrativeEventHistoryErrorCode where
  | corrupted
  | capacityExceeded
  deriving DecidableEq

/-- `{ version: 1, ...event }`. -/
def versionFields (event : AdministrativeEvent) : Fields := ("version", .num 1) :: event.fields

/-- The line of an event without its end. -/
def eventLine (event : AdministrativeEvent) : Text := (treeOf (.obj (versionFields event))).write

def serializeEventLine (event : AdministrativeEvent) : Text := eventLine event ++ [0x0A]

def removeVersion (record : Fields) : Fields := record.filter fun f => f.1 ≠ "version"

/-- `String.prototype.trim`. -/
def trim (line : Text) : Text :=
  ((line.dropWhile fun c => isSpace (charOf c)).reverse.dropWhile fun c => isSpace (charOf c)).reverse

def isSingleAuthorizationEvent (event : AdministrativeEvent) : Bool :=
  event.operation = .authorizeAdministrativeOperation &&
    (event.status = .succeeded || event.status = .rejected)

/-- May an event not stand behind others of its attempt with these statuses? -/
def outOfOrder (prior : List AdministrativeEventStatus) (event : AdministrativeEvent) : Bool :=
  1 < prior.length ||
    (prior.length = 0 && event.status ≠ .started && !isSingleAuthorizationEvent event) ||
    (prior.length = 1 && event.status = .started)

/-- The statuses that have been read, by attempts. -/
abbrev AttemptStatuses := String → List AdministrativeEventStatus

def AttemptStatuses.set (attemptStatuses : AttemptStatuses) (event : AdministrativeEvent) :
    AttemptStatuses := fun attemptId =>
  if attemptId = event.attemptId then attemptStatuses attemptId ++ [event.status]
  else attemptStatuses attemptId

/-- The event that a line is written of. -/
def readLine (line : Text) : Except FileAdministrativeEventHistoryErrorCode AdministrativeEvent :=
  if maxLineBytes < byteLength (line ++ [0x0A]) then .error .capacityExceeded
  else
    match (jsonParse line).map jsValue with
    | some (.obj parsed) =>
      if field parsed "version" ≠ .num 1 then .error .corrupted
      else
        match createAdministrativeEvent (.obj (removeVersion parsed)) with
        | .error _ => .error .corrupted
        | .ok event =>
          if (serializeEventLine event).dropLast ≠ line then .error .corrupted else .ok event
    | _ => .error .corrupted

def readLines : Nat → AttemptStatuses → List Text →
    Except FileAdministrativeEventHistoryErrorCode (List AdministrativeEvent)
  | _, _, [] => .ok []
  | expectedSequence, attemptStatuses, line :: rest => do
    let event ← readLine line
    if event.sequence ≠ expectedSequence then .error .corrupted
    else if outOfOrder (attemptStatuses event.attemptId) event then .error .corrupted
    else
      let events ← readLines (expectedSequence + 1) (attemptStatuses.set event) rest
      return event :: events

/-- `none` is no file.  The decoder drops one byte order mark, so the test for a mark is about a
second one. -/
def reconstruct (file : Option Text) :
    Except FileAdministrativeEventHistoryErrorCode (List AdministrativeEvent) :=
  match file with
  | none => .ok []
  | some content =>
    if maxFileBytes < byteLength content then .error .capacityExceeded
    else if content = [] then .ok []
    else
      let text := decodeUtf8 content
      if text.head? = some byteOrderMark ∨ text.getLast? ≠ some 0x0A ∨ 0x0D ∈ text then
        .error .corrupted
      else
        let lines := (text.splitOn 0x0A).dropLast
        if lines.any fun line => line = [] || line ≠ trim line then .error .corrupted
        else readLines 1 (fun _ => []) lines

inductive RecordError where
  | history (code : FileAdministrativeEventHistoryErrorCode)
  | event (code : AdministrativeEventValidationErrorCode)
  deriving DecidableEq

def recordOne (file : Option Text) (input : AdministrativeEventInput) :
    Except RecordError AdministrativeEvent × Option Text :=
  match reconstruct file with
  | .error code => (.error (.history code), file)
  | .ok reconstructed =>
    let numbered : AdministrativeEvent := { input with sequence := reconstructed.length + 1 }
    match createAdministrativeEvent (.obj numbered.fields) with
    | .error code => (.error (.event code), file)
    | .ok event =>
      let line := serializeEventLine event
      let content := file.getD []
      if maxLineBytes < byteLength line then (.error (.history .capacityExceeded), file)
      else if maxFileBytes < byteLength content + byteLength line then
        (.error (.history .capacityExceeded), file)
      else
        -- the answer is checked once more when the line has been written
        match createAdministrativeEvent (.obj event.fields) with
        | .error code => (.error (.event code), some (content ++ line))
        | .ok answer => (.ok answer, some (content ++ line))

/-- `record` checks its input before anything else. -/
def record (file : Option Text) (input : JsValue) :
    Except RecordError AdministrativeEvent × Option Text :=
  match createAdministrativeEventInput input with
  | .error code => (.error (.event code), file)
  | .ok validated => recordOne file validated

inductive QueryError where
  | history (code : FileAdministrativeEventHistoryErrorCode)
  | event
  | page
  deriving DecidableEq

/-- Every event of a page is checked twice. -/
def queryOne (file : Option Text) (query : AdministrativeEventHistoryQuery) :
    Except QueryError AdministrativeEventHistoryPage :=
  match reconstruct file with
  | .error code => .error (.history code)
  | .ok reconstructed =>
    let found := reconstructed.filter fun event => matchesQuery event query
    match checkEvents (found.take query.limit) with
    | .error _ => .error .event
    | .ok events =>
      match createAdministrativeEventHistoryPage events (query.limit < found.length) with
      | .error _ => .error .page
      | .ok page => .ok page

/-! ## What is read of any text -/

theorem nodup_names_assign {made : List (Text × Value)} (h : (made.map Prod.fst).Nodup) (name : Text)
    (value : Value) : ((assign made name value).map Prod.fst).Nodup := by
  have hnames : (made.map fun m => if m.1 = name then (name, value) else m).map Prod.fst =
      made.map Prod.fst := by
    rw [List.map_map]
    refine List.map_congr_left fun m _ => ?_
    by_cases hname : m.1 = name
    · simp [hname]
    · simp [hname]
  rw [assign]
  by_cases hany : (made.any fun m => decide (m.1 = name)) = true
  · rw [if_pos hany, hnames]
    exact h
  · rw [if_neg hany, List.map_append, List.nodup_append]
    refine ⟨h, List.nodup_singleton _, ?_⟩
    intro other hother last hlast hsame
    rw [List.map_singleton, List.mem_singleton] at hlast
    obtain ⟨m, hm, hfst⟩ := List.mem_map.mp hother
    refine hany (List.any_eq_true.mpr ⟨m, hm, ?_⟩)
    simp [hfst, hsame, hlast]

theorem fieldsAreJs_assign {made : List (Text × Value)} {name : Text} {value : Value}
    (h : ∀ m ∈ made, IsJs (jsValue m.2)) (hvalue : IsJs (jsValue value)) :
    ∀ m ∈ assign made name value, IsJs (jsValue m.2) := by
  intro m hm
  rw [assign] at hm
  split_ifs at hm with hany
  · obtain ⟨other, hother, rfl⟩ := List.mem_map.mp hm
    by_cases hname : other.1 = name
    · rw [if_pos hname]
      exact hvalue
    · rw [if_neg hname]
      exact h other hother
  · rw [List.mem_append, List.mem_singleton] at hm
    cases hm with
    | inl hmade => exact h m hmade
    | inr hlast =>
        rw [hlast]
        exact hvalue

mutual

/-- What the host reads of a text is a value of JavaScript, also where a name stands twice. -/
theorem isJs_value (tree : Tree) : IsJs (jsValue tree.value) := by
  cases tree with
  | null => trivial
  | bool b => trivial
  | num literal =>
      rw [Tree.value]
      cases toNumber literal <;> trivial
  | str s => exact isUnits_textOf s
  | arr items => exact areJs_items items
  | obj members =>
      have hread := @isJs_memberValues members [] (by simp) (by simp)
      rw [Tree.value, jsValue, IsJs, jsFields_eq]
      refine ⟨?_, fieldsAreJs_iff.mpr fun f hf => ?_⟩
      · have hmap : ((memberValues [] members).map fun m => (textOf m.1, jsValue m.2)).map Prod.fst =
            ((memberValues [] members).map Prod.fst).map textOf := by
          rw [List.map_map, List.map_map]
          rfl
        rw [hmap]
        exact hread.1.map textOf_injective
      · obtain ⟨m, hm, rfl⟩ := List.mem_map.mp hf
        exact ⟨isUnits_textOf m.1, hread.2 m hm⟩

theorem areJs_items (items : List Tree) : AreJs (jsItems (values items)) := by
  cases items with
  | nil => trivial
  | cons item items => exact ⟨isJs_value item, areJs_items items⟩

theorem isJs_memberValues (members : List (Text × Tree)) {made : List (Text × Value)}
    (hnodup : (made.map Prod.fst).Nodup) (hmade : ∀ m ∈ made, IsJs (jsValue m.2)) :
    ((memberValues made members).map Prod.fst).Nodup ∧
      ∀ m ∈ memberValues made members, IsJs (jsValue m.2) := by
  cases members with
  | nil => exact ⟨hnodup, hmade⟩
  | cons m members =>
      exact isJs_memberValues members (nodup_names_assign hnodup m.1 m.2.value)
        (fieldsAreJs_assign hmade (isJs_value m.2))

end

theorem isJs_jsonParse {text : Text} {read : Value} (h : jsonParse text = some read) :
    IsJs (jsValue read) := by
  obtain ⟨tree, -, rfl⟩ := jsonParse_eq_some.mp h
  exact isJs_value tree

/-! ## The line of an event -/

theorem names_fields (event : AdministrativeEvent) : "version" ∉ event.fields.map Prod.fst := by
  cases hdetails : event.details with
  | none => simp [AdministrativeEvent.fields, hdetails]
  | some details => simp [AdministrativeEvent.fields, hdetails]

theorem isWritable_versionFields {event : AdministrativeEvent} (h : Checked event) :
    IsWritable (.obj (versionFields event)) := by
  have hfields := isWritable_fields h
  rw [IsWritable] at hfields
  rw [IsWritable, versionFields, List.map_cons, List.nodup_cons, FieldsAreWritable]
  exact ⟨⟨names_fields event, hfields.1⟩, by decide, isWritable_nat (by decide), hfields.2⟩

theorem removeVersion_versionFields (event : AdministrativeEvent) :
    removeVersion (versionFields event) = event.fields := by
  rw [removeVersion, versionFields, List.filter_cons_of_neg (by simp), List.filter_eq_self]
  intro f hf
  have hne : f.1 ≠ "version" := fun hname => names_fields event (hname ▸ List.mem_map_of_mem hf)
  simpa using hne

theorem jsonParse_write {value : JsValue} (h : IsWritable value) :
    (jsonParse (treeOf value).write).map jsValue = some value := by
  have htext := @isJsonText_write _ (literalsValid_treeOf value) [] .nil
  rw [List.append_nil] at htext
  rw [jsonParse_eq_some.mpr ⟨_, htext, rfl⟩, Option.map_some, jsValue_value_treeOf h]

/-- An event that a line can hold. -/
structure Stored (event : AdministrativeEvent) : Prop where
  checked : Checked event
  short : byteLength (serializeEventLine event) ≤ maxLineBytes

theorem dropLast_serializeEventLine (event : AdministrativeEvent) :
    (serializeEventLine event).dropLast = eventLine event := List.dropLast_concat

/-- **A line is read** exactly where it is written of the event. -/
theorem readLine_eq_ok {line : Text} {event : AdministrativeEvent} :
    readLine line = .ok event ↔ line = eventLine event ∧ Stored event := by
  constructor
  · intro h
    rw [readLine] at h
    split_ifs at h with hlong
    cases hread : jsonParse line with
    | none => simp [hread] at h
    | some read =>
        cases hvalue : jsValue read with
        | obj parsed =>
            simp only [hread, Option.map_some, hvalue] at h
            split_ifs at h with hversion
            cases hcreate : createAdministrativeEvent (.obj (removeVersion parsed)) with
            | error code => simp [hcreate] at h
            | ok made =>
                simp only [hcreate] at h
                split_ifs at h with hsame
                obtain rfl := Except.ok.inj h
                rw [not_not, dropLast_serializeEventLine] at hsame
                have hjs := isJs_jsonParse hread
                rw [hvalue, IsJs] at hjs
                have hkept : IsJs (.obj (removeVersion parsed)) :=
                  ⟨hjs.1.sublist (List.filter_sublist.map Prod.fst), fieldsAreJs_iff.mpr fun f hf =>
                    fieldsAreJs_iff.mp hjs.2 f (List.mem_of_mem_filter hf)⟩
                have hchecked : Checked made := ⟨_, hkept, hcreate⟩
                rw [← hsame] at hlong
                exact ⟨hsame.symm, hchecked, Nat.le_of_not_lt hlong⟩
        | _ => simp [hread, hvalue] at h
  · intro h
    obtain ⟨hline, hchecked, hshort⟩ := h
    have hversion : field (versionFields event) "version" = .num 1 := rfl
    rw [serializeEventLine] at hshort
    have hread : (jsonParse (eventLine event)).map jsValue = some (.obj (versionFields event)) :=
      jsonParse_write (isWritable_versionFields hchecked)
    rw [hline, readLine, if_neg (Nat.not_lt.mpr hshort)]
    simp only [hread, hversion, ne_eq, not_true_eq_false, if_false, removeVersion_versionFields,
      createAdministrativeEvent_again hchecked, dropLast_serializeEventLine]

/-! ## Attempts -/

/-- The events of one attempt. -/
def ofAttempt (attemptId : String) (events : List AdministrativeEvent) : List AdministrativeEvent :=
  events.filter fun event => event.attemptId = attemptId

def Opens (event : AdministrativeEvent) : Prop :=
  event.status = .started ∨ isSingleAuthorizationEvent event = true

/-- An attempt has at most two events: one that opens it, and one that does not. -/
def InTurn : List AdministrativeEvent → Prop
  | [] => True
  | [first] => Opens first
  | [first, second] => Opens first ∧ second.status ≠ .started
  | _ => False

/-- Every attempt is in turn. -/
def InOrder (events : List AdministrativeEvent) : Prop := ∀ attemptId, InTurn (ofAttempt attemptId events)

theorem inTurn_append (events : List AdministrativeEvent) (event : AdministrativeEvent) :
    InTurn (events ++ [event]) ↔
      InTurn events ∧ outOfOrder (events.map (·.status)) event = false := by
  cases events with
  | nil => simp [InTurn, Opens, outOfOrder, or_iff_not_imp_left]
  | cons first rest =>
      cases rest with
      | nil => simp [InTurn, outOfOrder]
      | cons second rest =>
          cases rest with
          | nil => simp [InTurn, outOfOrder]
          | cons third rest => simp [InTurn]

theorem ofAttempt_append (attemptId : String) (events : List AdministrativeEvent)
    (event : AdministrativeEvent) :
    ofAttempt attemptId (events ++ [event]) =
      ofAttempt attemptId events ++ if event.attemptId = attemptId then [event] else [] := by
  rw [ofAttempt, List.filter_append]
  by_cases hsame : event.attemptId = attemptId
  · simp [ofAttempt, hsame]
  · simp [ofAttempt, hsame]

/-- **A further event** has to be in turn in its attempt. -/
theorem inOrder_append (events : List AdministrativeEvent) (event : AdministrativeEvent) :
    InOrder (events ++ [event]) ↔
      InOrder events ∧ outOfOrder ((ofAttempt event.attemptId events).map (·.status)) event = false := by
  constructor
  · intro h
    have hown := h event.attemptId
    rw [ofAttempt_append, if_pos rfl, inTurn_append] at hown
    refine ⟨fun attemptId => ?_, hown.2⟩
    have hall := h attemptId
    rw [ofAttempt_append] at hall
    by_cases hsame : event.attemptId = attemptId
    · rw [if_pos hsame, inTurn_append] at hall
      exact hall.1
    · rw [if_neg hsame, List.append_nil] at hall
      exact hall
  · intro h attemptId
    rw [ofAttempt_append]
    by_cases hsame : event.attemptId = attemptId
    · rw [if_pos hsame, inTurn_append, ← hsame]
      exact ⟨h.1 _, h.2⟩
    · rw [if_neg hsame, List.append_nil]
      exact h.1 attemptId

/-- The statuses behind events that have been read. -/
theorem foldl_set (attemptStatuses : AttemptStatuses) (events : List AdministrativeEvent)
    (attemptId : String) :
    events.foldl AttemptStatuses.set attemptStatuses attemptId =
      attemptStatuses attemptId ++ (ofAttempt attemptId events).map (·.status) := by
  induction events generalizing attemptStatuses with
  | nil => simp [ofAttempt]
  | cons event rest ih =>
      rw [List.foldl_cons, ih, AttemptStatuses.set, ofAttempt, ofAttempt]
      by_cases hsame : event.attemptId = attemptId
      · simp [hsame]
      · simp [hsame, Ne.symm hsame]

/-! ## Lines -/

/-- The lines behind others are read with the number and the statuses behind these. -/
theorem readLines_append (n : Nat) (attemptStatuses : AttemptStatuses) (a b : List Text) :
    readLines n attemptStatuses (a ++ b) = (do
      let front ← readLines n attemptStatuses a
      let back ← readLines (n + front.length) (front.foldl AttemptStatuses.set attemptStatuses) b
      return front ++ back) := by
  induction a generalizing n attemptStatuses with
  | nil =>
      show readLines n attemptStatuses b = (readLines n attemptStatuses b >>= fun back => .ok back)
      cases readLines n attemptStatuses b <;> rfl
  | cons line a ih =>
      rw [List.cons_append, readLines, readLines]
      cases readLine line with
      | error code => rfl
      | ok event =>
          show (if _ then _ else if _ then _ else _) = ((if _ then _ else if _ then _ else _) >>= _)
          by_cases hnumber : event.sequence ≠ n
          · rw [if_pos hnumber, if_pos hnumber]
            rfl
          rw [if_neg hnumber, if_neg hnumber]
          by_cases horder : outOfOrder (attemptStatuses event.attemptId) event = true
          · rw [if_pos horder, if_pos horder]
            rfl
          rw [if_neg horder, if_neg horder, ih]
          cases readLines (n + 1) (attemptStatuses.set event) a with
          | error code => rfl
          | ok front =>
              have hlength : n + (event :: front).length = n + 1 + front.length := by
                rw [List.length_cons]
                omega
              show (readLines (n + 1 + front.length) _ b >>= _ >>= _) =
                (readLines (n + (event :: front).length) _ b >>= _)
              rw [hlength, List.foldl_cons]
              cases readLines (n + 1 + front.length)
                (front.foldl AttemptStatuses.set (attemptStatuses.set event)) b <;> rfl

theorem readLines_singleton (n : Nat) (attemptStatuses : AttemptStatuses) (line : Text) :
    readLines n attemptStatuses [line] =
      match readLine line with
      | .error code => .error code
      | .ok event =>
        if event.sequence ≠ n then .error .corrupted
        else if outOfOrder (attemptStatuses event.attemptId) event then .error .corrupted
        else .ok [event] := by
  rw [readLines]
  cases readLine line <;> rfl

/-- The events that a file can hold. -/
structure Written (events : List AdministrativeEvent) : Prop where
  stored : ∀ event ∈ events, Stored event
  sequences : events.map (·.sequence) = List.range' 1 events.length
  inOrder : InOrder events

theorem written_nil : Written [] where
  stored := by simp
  sequences := rfl
  inOrder := fun _ => trivial

theorem written_append (events : List AdministrativeEvent) (event : AdministrativeEvent) :
    Written (events ++ [event]) ↔ Written events ∧ Stored event ∧ event.sequence = 1 + events.length ∧
      outOfOrder ((ofAttempt event.attemptId events).map (·.status)) event = false := by
  have hsequences : (events ++ [event]).map (·.sequence) = List.range' 1 (events ++ [event]).length ↔
      events.map (·.sequence) = List.range' 1 events.length ∧ event.sequence = 1 + events.length := by
    rw [List.length_append, List.length_singleton, List.range'_concat, List.map_append,
      List.map_singleton, List.append_singleton_inj, Nat.one_mul]
  constructor
  · intro h
    obtain ⟨hinOrder, hnext⟩ := (inOrder_append events event).mp h.inOrder
    obtain ⟨hfront, hlast⟩ := hsequences.mp h.sequences
    exact ⟨⟨fun other hother => h.stored other (List.mem_append_left _ hother), hfront, hinOrder⟩,
      h.stored event (List.mem_append_right _ (List.mem_singleton_self event)), hlast, hnext⟩
  · intro h
    obtain ⟨hwritten, hstored, hlast, hnext⟩ := h
    refine ⟨?_, hsequences.mpr ⟨hwritten.sequences, hlast⟩,
      (inOrder_append events event).mpr ⟨hwritten.inOrder, hnext⟩⟩
    intro other hother
    rw [List.mem_append, List.mem_singleton] at hother
    cases hother with
    | inl hfront => exact hwritten.stored other hfront
    | inr hsame => rw [hsame]; exact hstored

theorem readLines_eq_ok {lines : List Text} {events : List AdministrativeEvent} :
    readLines 1 (fun _ => []) lines = .ok events ↔ lines = events.map eventLine ∧ Written events := by
  induction lines using List.reverseRecOn generalizing events with
  | nil =>
      rw [readLines, Except.ok.injEq]
      constructor
      · intro h
        rw [← h]
        exact ⟨rfl, written_nil⟩
      · intro h
        exact (List.map_eq_nil_iff.mp h.1.symm).symm
  | append_singleton lines line ih =>
      rw [readLines_append]
      constructor
      · intro h
        obtain ⟨front, hfront, h⟩ := bind_ok.mp h
        obtain ⟨back, hback, h⟩ := bind_ok.mp h
        obtain rfl := Except.ok.inj h
        obtain ⟨hlines, hwritten⟩ := ih.mp hfront
        rw [readLines_singleton] at hback
        cases hread : readLine line with
        | error code => simp [hread] at hback
        | ok event =>
            simp only [hread] at hback
            split_ifs at hback with hnumber horder
            obtain rfl := Except.ok.inj hback
            rw [not_not] at hnumber
            rw [foldl_set, List.nil_append, Bool.not_eq_true] at horder
            obtain ⟨hline, hstored⟩ := readLine_eq_ok.mp hread
            rw [List.map_append, ← hlines, List.map_singleton, ← hline]
            exact ⟨rfl, (written_append front event).mpr ⟨hwritten, hstored, hnumber, horder⟩⟩
      · intro h
        obtain ⟨hlines, hwritten⟩ := h
        cases List.eq_nil_or_concat' events with
        | inl hempty => simp [hempty] at hlines
        | inr hconcat =>
            obtain ⟨front, event, rfl⟩ := hconcat
            rw [List.map_append, List.map_singleton, List.append_singleton_inj] at hlines
            obtain ⟨hfront, hline⟩ := hlines
            obtain ⟨hwritten, hstored, hnumber, horder⟩ := (written_append front event).mp hwritten
            have hread := readLine_eq_ok.mpr ⟨hline, hstored⟩
            refine bind_ok.mpr ⟨front, ih.mpr ⟨hfront, hwritten⟩, bind_ok.mpr ⟨[event], ?_, rfl⟩⟩
            rw [readLines_singleton, hread]
            simp only [hnumber, ne_eq, not_true_eq_false, if_false, foldl_set, List.nil_append, horder,
              Bool.false_eq_true]

/-! ## Files -/

theorem serialized_eq (events : List AdministrativeEvent) :
    events.flatMap serializeEventLine = (events.map eventLine).flatMap (· ++ [0x0A]) := by
  rw [List.flatMap_map]
  rfl

theorem flatMap_lines {lines : List Text} (hne : lines ≠ []) :
    lines.flatMap (· ++ [0x0A]) = List.intercalate [0x0A] lines ++ [0x0A] := by
  induction lines with
  | nil => exact absurd rfl hne
  | cons line rest ih =>
      cases rest with
      | nil => simp
      | cons next rest =>
          rw [List.flatMap_cons, ih (by simp), List.intercalate_cons_cons]
          simp

/-- A text that ends with a line feed is its lines, each of them ended. -/
theorem eq_flatMap_lines {text : Text} (h : text.getLast? = some 0x0A) :
    text = ((text.splitOn 0x0A).dropLast).flatMap (· ++ [0x0A]) := by
  obtain ⟨front, rfl⟩ := List.getLast?_eq_some_iff.mp h
  rw [List.splitOn_append_cons_self, List.splitOn_nil, List.dropLast_concat,
    flatMap_lines (List.splitOn_ne_nil _ _), List.intercalate_splitOn]

/-- And ended lines are split off again. -/
theorem splitOn_flatMap {lines : List Text} (h : ∀ line ∈ lines, (0x0A : CodeUnit) ∉ line) :
    ((lines.flatMap (· ++ [(0x0A : CodeUnit)])).splitOn 0x0A).dropLast = lines := by
  by_cases hne : lines = []
  · rw [hne]
    rfl
  · rw [flatMap_lines hne, List.splitOn_append_cons_self, List.splitOn_nil, List.dropLast_concat,
      List.splitOn_intercalate _ h hne]

theorem eventLine_eq (event : AdministrativeEvent) :
    ∃ middle, eventLine event = unit '{' :: (middle ++ [unit '}']) := by
  rw [eventLine, treeOf, Tree.write]
  exact ⟨_, rfl⟩

theorem trim_eventLine (event : AdministrativeEvent) : trim (eventLine event) = eventLine event := by
  obtain ⟨middle, hline⟩ := eventLine_eq event
  have hopen : isSpace (charOf (unit '{')) = false := by decide
  have hclose : isSpace (charOf (unit '}')) = false := by decide
  rw [hline, trim, List.dropWhile_cons_of_neg (by simp [hopen]), List.reverse_cons, List.reverse_append,
    List.reverse_singleton, List.singleton_append, List.cons_append,
    List.dropWhile_cons_of_neg (by simp [hclose])]
  simp

theorem visible_eventLine (event : AdministrativeEvent) : Visible (eventLine event) :=
  visible_write _ (literalsValid_treeOf _)

theorem control_not_mem_eventLine {c : CodeUnit} (hc : c < 0x20) (event : AdministrativeEvent) :
    c ∉ eventLine event := fun hmem =>
  absurd (visible_eventLine event c hmem) (UInt16.not_le.mpr hc)

/-- The content of a file that holds events: their lines, also behind a byte order mark.  A mark alone
holds nothing, not even no events. -/
def Holds (content : Text) (events : List AdministrativeEvent) : Prop :=
  content = events.flatMap serializeEventLine ∨
    events ≠ [] ∧ content = byteOrderMark :: events.flatMap serializeEventLine

theorem head?_serialized {events : List AdministrativeEvent} (h : events ≠ []) :
    (events.flatMap serializeEventLine).head? = some (unit '{') := by
  obtain ⟨first, rest, rfl⟩ := List.exists_cons_of_ne_nil h
  obtain ⟨middle, hline⟩ := eventLine_eq first
  rw [List.flatMap_cons, serializeEventLine, hline]
  rfl

/-- A line starts with a brace, so only a mark in front is dropped. -/
theorem decodeUtf8_serialized (events : List AdministrativeEvent) :
    decodeUtf8 (events.flatMap serializeEventLine) = events.flatMap serializeEventLine := by
  refine decodeUtf8_of_head? ?_
  by_cases hnone : events = []
  · simp [hnone]
  · rw [head?_serialized hnone]
    decide

namespace Holds

variable {content : Text} {events : List AdministrativeEvent}

theorem decodeUtf8_eq (h : Holds content events) :
    decodeUtf8 content = events.flatMap serializeEventLine := by
  rcases h with rfl | ⟨-, rfl⟩
  · exact decodeUtf8_serialized events
  · exact decodeUtf8_mark _

theorem content_ne (h : Holds content events) (hne : events ≠ []) : content ≠ [] := by
  rcases h with rfl | ⟨-, rfl⟩
  · intro hnil
    have hhead := head?_serialized hne
    rw [hnil] at hhead
    cases hhead
  · exact List.cons_ne_nil _ _

theorem nil : Holds [] [] := .inl rfl

/-- A line is appended to either of them. -/
theorem append (h : Holds content events) (event : AdministrativeEvent) :
    Holds (content ++ serializeEventLine event) (events ++ [event]) := by
  rw [Holds, List.flatMap_append, List.flatMap_singleton]
  rcases h with rfl | ⟨-, rfl⟩
  · exact .inl rfl
  · exact .inr ⟨by simp, rfl⟩

theorem length_le (h : Holds content events) : events.length ≤ content.length := by
  have hlines : events.length ≤ (events.flatMap serializeEventLine).length := by
    clear h
    induction events with
    | nil => exact Nat.zero_le _
    | cons event rest ih =>
        rw [List.flatMap_cons, List.length_append, serializeEventLine, List.length_append,
          List.length_singleton, List.length_cons]
        omega
  rcases h with rfl | ⟨-, rfl⟩
  · exact hlines
  · rw [List.length_cons]
    omega

end Holds

/-- A file that holds events is read line by line. -/
theorem reconstruct_lines {content : Text} {events : List AdministrativeEvent} (hne : events ≠ [])
    (h : Holds content events) (hbytes : byteLength content ≤ maxFileBytes) :
    reconstruct (some content) = readLines 1 (fun _ => []) (events.map eventLine) := by
  have hlines : ((events.flatMap serializeEventLine).splitOn 0x0A).dropLast = events.map eventLine := by
    rw [serialized_eq]
    refine splitOn_flatMap fun line hline => ?_
    obtain ⟨event, -, rfl⟩ := List.mem_map.mp hline
    exact control_not_mem_eventLine (by decide) event
  have hreturn : (0x0D : CodeUnit) ∉ events.flatMap serializeEventLine := by
    rw [List.mem_flatMap]
    intro hmem
    obtain ⟨event, -, hmem⟩ := hmem
    rw [serializeEventLine, List.mem_append, List.mem_singleton] at hmem
    exact hmem.elim (control_not_mem_eventLine (by decide) event) (by decide)
  have hlast : (events.flatMap serializeEventLine).getLast? = some 0x0A := by
    rw [serialized_eq, flatMap_lines (by simp [hne]), List.getLast?_append]
    rfl
  have htrimmed : ((events.map eventLine).any fun line => line = [] || line ≠ trim line) = false := by
    rw [List.any_eq_false]
    intro line hline
    obtain ⟨event, -, rfl⟩ := List.mem_map.mp hline
    obtain ⟨middle, hnonempty⟩ := eventLine_eq event
    rw [trim_eventLine, hnonempty]
    simp
  have hmark : (some (unit '{') : Option CodeUnit) ≠ some byteOrderMark := by decide
  simp only [reconstruct, h.decodeUtf8_eq]
  rw [if_neg (Nat.not_lt.mpr hbytes), if_neg (h.content_ne hne), head?_serialized hne, hlast,
    if_neg (by simp [hmark, hreturn]), hlines]
  simp only [htrimmed, Bool.false_eq_true, if_false]

/-- **The file is canonical**: what is read of a content is exactly what it is written of, and it is
written of events with the numbers from 1 on, whose attempts are in turn. -/
theorem reconstruct_eq_ok {content : Text} {events : List AdministrativeEvent} :
    reconstruct (some content) = .ok events ↔
      Holds content events ∧ byteLength content ≤ maxFileBytes ∧ Written events := by
  constructor
  · intro h
    simp only [reconstruct] at h
    split_ifs at h with hlong hempty hbroken hblank
    · rw [Except.ok.injEq] at h
      rw [← h, hempty]
      exact ⟨.nil, by decide, written_nil⟩
    · obtain ⟨hread, hwritten⟩ := readLines_eq_ok.mp h
      rw [not_or, not_or, not_not] at hbroken
      have htext : decodeUtf8 content = events.flatMap serializeEventLine := by
        rw [serialized_eq, ← hread]
        exact eq_flatMap_lines hbroken.2.1
      have hne : events ≠ [] := by
        intro hnone
        rw [htext, hnone] at hbroken
        cases hbroken.2.1
      refine ⟨?_, Nat.le_of_not_lt hlong, hwritten⟩
      rcases decodeUtf8_eq_iff.mp htext with hmarked | ⟨hplain, -⟩
      · exact .inr ⟨hne, hmarked⟩
      · exact .inl hplain
  · intro h
    obtain ⟨hholds, hbytes, hwritten⟩ := h
    by_cases hnone : events = []
    · rcases hholds with rfl | ⟨hne, -⟩
      · rw [hnone]
        rfl
      · exact absurd hnone hne
    · rw [reconstruct_lines hnone hholds hbytes]
      exact readLines_eq_ok.mpr ⟨rfl, hwritten⟩

theorem inTurn_iff {events : List AdministrativeEvent} :
    InTurn events ↔ events = [] ∨ (∃ first, Opens first ∧ events = [first]) ∨
      ∃ first second, Opens first ∧ second.status ≠ .started ∧ events = [first, second] := by
  cases events with
  | nil => simp [InTurn]
  | cons first rest =>
      cases rest with
      | nil => simp [InTurn]
      | cons second rest =>
          cases rest with
          | nil =>
              simp only [InTurn, List.cons.injEq, and_true, reduceCtorEq, and_false, exists_false, false_or]
              constructor
              · intro h
                exact ⟨first, second, h.1, h.2, rfl, rfl⟩
              · intro h
                obtain ⟨opening, closing, hopens, hcloses, rfl, rfl⟩ := h
                exact ⟨hopens, hcloses⟩
          | cons third rest => simp [InTurn]

/-- **Which files are read**: those that are written of checked events with short lines and the numbers
from 1 on, where each attempt has one event that opens it and at most one behind it; also behind a
byte order mark, where there is an event. -/
theorem reconstruct_exact (content : Text) (events : List AdministrativeEvent) :
    reconstruct (some content) = .ok events ↔
      (content = events.flatMap serializeEventLine ∨
        events ≠ [] ∧ content = byteOrderMark :: events.flatMap serializeEventLine) ∧
      byteLength content ≤ maxFileBytes ∧
      (∀ event ∈ events, Checked event ∧ byteLength (serializeEventLine event) ≤ maxLineBytes) ∧
      events.map (·.sequence) = List.range' 1 events.length ∧
      ∀ attemptId, ofAttempt attemptId events = [] ∨
        (∃ first, Opens first ∧ ofAttempt attemptId events = [first]) ∨
        ∃ first second, Opens first ∧ second.status ≠ .started ∧
          ofAttempt attemptId events = [first, second] := by
  rw [reconstruct_eq_ok]
  refine and_congr_right fun _ => and_congr_right fun _ => ?_
  constructor
  · intro h
    exact ⟨fun event hevent => ⟨(h.stored event hevent).checked, (h.stored event hevent).short⟩,
      h.sequences, fun attemptId => inTurn_iff.mp (h.inOrder attemptId)⟩
  · intro h
    obtain ⟨hstored, hsequences, hinOrder⟩ := h
    exact ⟨fun event hevent => ⟨(hstored event hevent).1, (hstored event hevent).2⟩, hsequences,
      fun attemptId => inTurn_iff.mpr (hinOrder attemptId)⟩

end VersionOne

end AtlasManager.EventHistory
