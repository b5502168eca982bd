import AtlasManager.EventHistory.HistoryOperations

/-!
# AtlasManager.EventHistory.HistoryQuery

Requests for events of the history, page by page.

* `createAdministrativeEventHistoryQuery` -- the check of a request;
* `queryOne`, `query` -- a page of the events that match, from behind a number;
* `Pages` -- a reader that follows the pages up to the last one, while the history is written to.
-/

namespace AtlasManager.EventHistory

open AtlasManager.Lib AtlasManager.Lib.Rfc8259 AtlasManager.Backup

/-! ## Requests -/

structure AdministrativeEventHistoryQuery where
  afterSequence : Nat
  limit : Nat
  source : Option AdministrativeEventSourceKind
  operation : Option AdministrativeEventOperation
  status : Option AdministrativeEventStatus
  attemptId : Option String
  occurredFrom : Option String
  occurredTo : Option String
  deriving DecidableEq

inductive AdministrativeEventHistoryQueryErrorCode where
  | invalidRecord
  | invalidField
  | invalidAfterSequence
  | invalidLimit
  | invalidSource
  | invalidOperation
  | invalidStatus
  | invalidAttemptId
  | invalidOccurredFrom
  | invalidOccurredTo
  | invalidTimeInterval
  deriving DecidableEq

def queryNames : List String :=
  ["afterSequence", "limit", "source", "operation", "status", "attemptId", "occurredFrom", "occurredTo"]

/-- The operations that can be asked for, which are not all that there are. -/
def queryOperations : List AdministrativeEventOperation :=
  [.authorizeAdministrativeOperation, .scheduleWakeAlarm, .cancelWakeAlarm, .requestMachineShutdown,
    .prepareMachineShutdownOccurrence, .executeMachineShutdownOccurrence, .runMachinePowerSchedulerTick,
    .verifyEventHistoryIntegrity, .rotateAdministrativeEventHistory,
    .updateAdministrativeEventHistoryRetention, .pruneAdministrativeEventHistory,
    .createAdministrativeEventHistoryExport, .pruneAdministrativeEventHistoryExports,
    .recoverAdministrativeEventHistoryStaleLock, .migrateAdministrativeEventHistoryV1]

def AdministrativeEventSourceKind.all : List AdministrativeEventSourceKind :=
  [.administrative, .automated, .system]

/-- A check that may refuse a request. -/
abbrev QueryCheck := Except AdministrativeEventHistoryQueryErrorCode

/-- A field that may be left out. -/
def optionalField {α : Type} (value : JsValue) (read : JsValue → Option α)
    (code : AdministrativeEventHistoryQueryErrorCode) : QueryCheck (Option α) :=
  if value = .undefined then .ok none
  else
    match read value with
    | some found => .ok (some found)
    | none => .error code

/-- `record[name] ?? missing`. -/
def fieldOr (record : Fields) (name : String) (missing : Nat) : JsValue :=
  match field record name with
  | .undefined => .num missing
  | .null => .num missing
  | value => value

def attemptId? : JsValue → Option String
  | .str text => if isRunId text then some text else none
  | _ => none

def createAdministrativeEventHistoryQuery (input : JsValue) :
    QueryCheck AdministrativeEventHistoryQuery := do
  match (if input = .undefined then .obj [] else input) with
  | .obj record =>
    if hasFieldOutside queryNames record then .error .invalidField
    else
      match nonNegativeInteger? (fieldOr record "afterSequence" 0) with
      | none => .error .invalidAfterSequence
      | some afterSequence =>
        match positiveInteger? (fieldOr record "limit" 50) with
        | none => .error .invalidLimit
        | some limit =>
          if 100 < limit then .error .invalidLimit
          else do
            let source ← optionalField (field record "source")
              (oneOf AdministrativeEventSourceKind.all AdministrativeEventSourceKind.text) .invalidSource
            let operation ← optionalField (field record "operation")
              (oneOf queryOperations AdministrativeEventOperation.text) .invalidOperation
            let status ← optionalField (field record "status")
              (oneOf AdministrativeEventStatus.all AdministrativeEventStatus.text) .invalidStatus
            let attemptId ← optionalField (field record "attemptId") attemptId? .invalidAttemptId
            let occurredFrom ← optionalField (field record "occurredFrom")
              (fun value => value.timestamp?.map Timestamp.text) .invalidOccurredFrom
            let occurredTo ← optionalField (field record "occurredTo")
              (fun value => value.timestamp?.map Timestamp.text) .invalidOccurredTo
            match occurredFrom, occurredTo with
            | some start, some stop =>
              if stop ≤ start then .error .invalidTimeInterval
              else
                .ok { afterSequence, limit, source, operation, status, attemptId, occurredFrom, occurredTo }
            | _, _ =>
              .ok { afterSequence, limit, source, operation, status, attemptId, occurredFrom, occurredTo }
  | _ => .error .invalidRecord

/-! ## Pages -/

/-- The filters of a request.  Instants are compared as texts. -/
def AdministrativeEventHistoryQuery.admits (query : AdministrativeEventHistoryQuery)
    (event : AdministrativeEventInput) : Bool :=
  (query.source.all fun kind => event.source.kind = kind) &&
    (query.operation.all fun operation => event.operation = operation) &&
    (query.status.all fun status => event.status = status) &&
    (query.attemptId.all fun attemptId => event.attemptId = attemptId) &&
    (query.occurredFrom.all fun start => start ≤ event.occurredAt) &&
    (query.occurredTo.all fun stop => event.occurredAt < stop)

def matchesQuery (event : AdministrativeEvent) (query : AdministrativeEventHistoryQuery) : Bool :=
  query.admits event.toAdministrativeEventInput && decide (query.afterSequence < event.sequence)

structure AdministrativeEventHistoryPage where
  events : List AdministrativeEvent
  hasMore : Bool
  nextAfterSequence : Option Nat
  deriving DecidableEq

inductive QueryError where
  | history (code : HistoryError)
  | invalidEvents
  deriving DecidableEq

/-- Every event of a page is checked again. -/
def checkEvents : List AdministrativeEvent → Except QueryError (List AdministrativeEvent)
  | [] => .ok []
  | event :: rest =>
    match createAdministrativeEvent (.obj event.fields) with
    | .error _ => .error .invalidEvents
    | .ok checked => do
      let events ← checkEvents rest
      return checked :: events

def createAdministrativeEventHistoryPage (events : List AdministrativeEvent) (hasMore : Bool) :
    Except QueryError AdministrativeEventHistoryPage := do
  let checked ← checkEvents events
  return ⟨checked, hasMore, checked.getLast?.map (·.sequence)⟩

section Query

variable (sha256 : Text → String) (limits : HistoryLimits)

def queryOne (disk : Option Root) (query : AdministrativeEventHistoryQuery) :
    Except QueryError AdministrativeEventHistoryPage :=
  match reconstruct sha256 limits disk with
  | .error code => .error (.history code)
  | .ok state =>
    if 0 < query.afterSequence && query.afterSequence < state.earliestRetainedSequence - 1 then
      .error (.history .historyPruned)
    else
      let found := state.events.filter fun event => matchesQuery event query
      createAdministrativeEventHistoryPage (found.take query.limit) (query.limit < found.length)

/-- `query` checks its input before anything else. -/
def query (disk : Option Root) (input : JsValue) :
    Except (AdministrativeEventHistoryQueryErrorCode ⊕ QueryError) AdministrativeEventHistoryPage :=
  match createAdministrativeEventHistoryQuery input with
  | .error code => .error (.inl code)
  | .ok checked => (queryOne sha256 limits disk checked).mapError .inr

/-! ## Readers -/

/-- A reader asks for the pages of a request one after another, each from behind the last event of the
one before it, until there are no more; calls may write to the history before each of them.  `events`
are those of all pages, `start` is the run at the first request and `stop` at the last one. -/
inductive Pages (query : AdministrativeEventHistoryQuery) :
    HistoryRun → Nat → List AdministrativeEvent → HistoryRun → HistoryRun → Prop
  | last {run : HistoryRun} {after : Nat} (calls : List (Timestamp × HistoryCall))
      {page : AdministrativeEventHistoryPage}
      (asked : queryOne sha256 limits (run.after sha256 limits calls).disk
        { query with afterSequence := after } = .ok page)
      (done : page.hasMore = false) :
      Pages query run after page.events (run.after sha256 limits calls) (run.after sha256 limits calls)
  | more {run start stop : HistoryRun} {after next : Nat} {events : List AdministrativeEvent}
      (calls : List (Timestamp × HistoryCall)) {page : AdministrativeEventHistoryPage}
      (asked : queryOne sha256 limits (run.after sha256 limits calls).disk
        { query with afterSequence := after } = .ok page)
      (goesOn : page.hasMore = true) (cursor : page.nextAfterSequence = some next)
      (rest : Pages query (run.after sha256 limits calls) next events start stop) :
      Pages query run after (page.events ++ events) (run.after sha256 limits calls) stop

end Query

end AtlasManager.EventHistory
