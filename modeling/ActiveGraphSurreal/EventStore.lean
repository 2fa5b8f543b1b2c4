import ActiveGraphSurreal.Connection

/-!
# The event store

`EventStore` is the state of one handle; `self` is read by `get` and changed by `modify`.
The clock `_now()` is an argument.
-/

namespace ActiveGraphSurreal

open Library

structure EventStore where
  scope : String
  runId : String
  closed : Bool
  runRecord : RecordId .agRun
  expectedNextSeq : Int
  expectedHeadHash : Option String
  deriving DecidableEq

structure IntegrityReport where
  eventCount : Nat
  nextSeq : Int
  headHash : Option String
  deriving DecidableEq

/-- What `get_run` returns. -/
structure RunRecord where
  runId : String
  parentRunId : Option String
  forkedAtEventId : Option String
  label : Option String
  createdAt : String
  goal : Option String
  frameId : Option String
  deriving DecidableEq

def conflictWords : List String :=
  ["conflict", "concurrent", "transaction", "unique", "already exists"]

/-- `any(word in text.lower() for word in _CONFLICT_WORDS)` -/
def hasConflictWord (text : String) : Bool :=
  conflictWords.any fun word => word.toList <:+: text.toList.map Char.toLower

variable {F X : Type} [Json.ScalarText F] (env : Env F X)

namespace EventStore

/-! ### Guards and small reads -/

def ensureOpen : Py EventStore Unit := do
  let self ← get
  lift (raiseIf self.closed ⟨.closedStoreError, "the SurrealEventStore is closed"⟩)

def eventRecord (eventId : String) : Py EventStore (RecordId .agEvent) := do
  let self ← get
  lift (recordId env.sha256 .agEvent [self.scope, self.runId, eventId])

def assertRowScope (row : EventRow) : Py EventStore Unit := do
  let self ← get
  lift (raiseIf (row.scope ≠ self.scope ∨ row.runId ≠ self.runId)
    ⟨.ledgerIntegrityError, "an event row crossed its scope/run boundary"⟩)

def readRunRow : Py EventStore (Option RunRow) := do
  let self ← get
  match ← query (.selectRun self.runRecord) with
  | none => return none
  | some row =>
    lift (raiseIf (row.scope ≠ self.scope ∨ row.runId ≠ self.runId)
      ⟨.ledgerIntegrityError, "the canonical run record has mismatched scope"⟩)
    return some row

def runMissing (runId : String) : PyErr :=
  ⟨.ledgerIntegrityError, "run metadata " ++ env.repr runId ++ " is missing"⟩

def transactionRunRow : Py EventStore RunRow := do
  let self ← get
  match ← txQuery (.selectRun self.runRecord) with
  | none => throw (runMissing env self.runId)
  | some row =>
    lift (raiseIf (row.scope ≠ self.scope ∨ row.runId ≠ self.runId)
      ⟨.ledgerIntegrityError, "the transactional run record is mis-scoped"⟩)
    return row

/-- The head that a row states is the one this handle expects. -/
def expects (self : EventStore) (head : RunRow) : Prop :=
  head.nextSeq = self.expectedNextSeq ∧ head.headHash = self.expectedHeadHash

instance (self : EventStore) (head : RunRow) : Decidable (self.expects head) :=
  inferInstanceAs (Decidable (_ ∧ _))

def assertExpectedHead (head : RunRow) : Py EventStore Unit := do
  let self ← get
  lift (raiseIf (¬ self.expects head) ⟨.concurrentWriterError,
    "run " ++ env.repr self.runId ++ " changed after this handle observed its head"⟩)

def raiseIfConcurrent (cause : PyErr) : Py EventStore Unit := do
  let self ← get
  let current ← tryCatch readRunRow fun _ => pure none
  let changed := current.any fun row => ¬ self.expects row
  lift (raiseIf (changed ∨ hasConflictWord cause.text) ⟨.concurrentWriterError,
    "run " ++ env.repr self.runId ++ " changed during a transactional write"⟩)

def destinationExists (runId : String) : Py EventStore Bool := do
  let self ← get
  let record ← lift (recordId env.sha256 .agRun [self.scope, runId])
  return (← query (.selectRun record)).isSome

def runExistsError (runId : String) : PyErr :=
  ⟨.runAlreadyExistsError, "destination run " ++ env.repr runId ++ " already exists"⟩

/-! ### Verification -/

/-- The chain check over the rows from position `expectedSeq` on. The result is the last
hash. -/
def verifyRows (scope runId : String) (expectedSeq : Nat) (previousHash : Option String) :
    List EventRow → Except PyErr (Option String)
  | [] => return previousHash
  | row :: rows => do
    raiseIf (row.scope ≠ scope ∨ row.runId ≠ runId)
      ⟨.ledgerIntegrityError, "an event row crossed its scope/run boundary"⟩
    raiseIf (row.seq ≠ expectedSeq) ⟨.ledgerIntegrityError, "run " ++ env.repr runId ++
      " has sequence " ++ toString row.seq ++ "; expected " ++ toString expectedSeq⟩
    raiseIf (row.previousHash ≠ previousHash) ⟨.ledgerIntegrityError,
      "event " ++ env.repr row.eventId ++ " has an invalid previous hash"⟩
    let event ← recordToEvent env row.toEventRecord
    let calculated ← eventHash env scope runId row.seq event row.previousHash
    raiseIf (calculated ≠ row.hash) ⟨.ledgerIntegrityError,
      "event " ++ env.repr event.id ++ " failed hash-chain verification"⟩
    verifyRows scope runId (expectedSeq + 1) (some calculated) rows

/-- The checks of `_verified_rows_and_run` on what its two queries have read. -/
def verify (scope runId : String) (rows : List EventRow) (run : Option RunRow) :
    Except PyErr (List EventRow × RunRow) :=
  match run with
  | none => .error (runMissing env runId)
  | some run => do
    let previousHash ← verifyRows env scope runId 0 none rows
    raiseIf (run.nextSeq ≠ rows.length) ⟨.ledgerIntegrityError, "run head expects " ++
      toString run.nextSeq ++ " events; found " ++ toString rows.length⟩
    raiseIf (run.headHash ≠ previousHash)
      ⟨.ledgerIntegrityError, "run head hash does not match the event chain"⟩
    return (rows, run)

def verifiedRowsAndRun : Py EventStore (List EventRow × RunRow) := do
  let self ← get
  ensureOpen
  let rows ← query (.selectEvents self.scope self.runId)
  let run ← readRunRow
  lift (verify env self.scope self.runId rows run)

def verifyIntegrity : Py EventStore IntegrityReport := do
  let (rows, run) ← verifiedRowsAndRun env
  return ⟨rows.length, run.nextSeq, run.headHash⟩

/-! ### Construction -/

def newRun (scope runId now : String) : RunRow where
  scope := scope
  runId := runId
  parentRunId := none
  forkedAtEventId := none
  label := none
  createdAt := now
  goal := none
  frameId := none
  nextSeq := 0
  headHash := none

/-- A competing constructor may have created the same canonical run. -/
def ensureRun (now : String) : Py EventStore Unit := do
  let self ← get
  match ← readRunRow with
  | some _ => pure ()
  | none =>
    tryCatch (query (.createRun self.runRecord (newRun self.scope self.runId now))) fun e => do
      let row ← readRunRow
      lift (raiseIf row.isNone e)

/-- The object before its constructor has run. -/
def blank : EventStore := ⟨"", "", false, ⟨""⟩, 0, none⟩

def construct (runId scope now : String) : Py EventStore Unit := do
  lift (raiseIf (runId = "") ⟨.valueError, "run_id must be non-empty"⟩)
  lift (raiseIf (scope = "") ⟨.valueError, "scope must be non-empty"⟩)
  modify fun self => { self with scope, runId, closed := false }
  query .connect
  tryCatch
    (do
      let _ ← ensureSchema schemaVersion false
      let runRecord ← lift (recordId env.sha256 .agRun [scope, runId])
      modify fun self => { self with runRecord }
      ensureRun now
      let report ← verifyIntegrity env
      modify fun self => { self with
        expectedNextSeq := report.nextSeq
        expectedHeadHash := report.headHash })
    fun e => do
      modify fun self => { self with closed := true }
      throw e

/-- `SurrealEventStore(config, run_id=run_id, scope=scope)` -/
def new {ℓ : Type} (runId scope now : String) : Py ℓ EventStore := fun l =>
  (construct env runId scope now blank).bind fun
    | (.ok (), self) => .done (.ok self, l)
    | (.error e, _) => .done (.error e, l)

/-! ### The event store protocol -/

def duplicateEvent (eventId runId : String) : PyErr :=
  ⟨.duplicateEventError,
    "event " ++ env.repr eventId ++ " already exists in run " ++ env.repr runId⟩

def eventNotFound (eventId runId : String) : PyErr :=
  ⟨.eventNotFoundError, "event " ++ env.repr eventId ++ " not found in run " ++ env.repr runId⟩

def eventRow (scope runId : String) (encoded : EventRecord) (seq : Int)
    (previousHash : Option String) (hash : String) : EventRow where
  toEventRecord := encoded
  scope := scope
  runId := runId
  seq := seq
  previousHash := previousHash
  hash := hash

/-- The guarded part of `append`: the new head that it has committed. -/
def appendTransaction (event : Event F X) (encoded : EventRecord) :
    Py EventStore (Int × Option String) := do
  let self ← get
  let head ← transactionRunRow env
  assertExpectedHead env head
  let record ← eventRecord env event.id
  let existing ← txQuery (.selectEvent record)
  lift (raiseIf existing.isSome (duplicateEvent env event.id self.runId))
  let seq := head.nextSeq
  let currentHash ←
    lift (eventHash env self.scope self.runId seq event head.headHash)
  txQuery (.createEvent record
    (eventRow self.scope self.runId encoded seq head.headHash currentHash))
  txQuery (.mergeHead self.runRecord (seq + 1) (some currentHash))
  commit
  return (seq + 1, some currentHash)

/-- The `except` branch of a write to the own run. -/
def abandon (passed : List ErrClass) (exc : PyErr) : Py EventStore Unit := do
  cancelSafely
  lift (raiseIf (exc.cls ∈ passed) exc)
  raiseIfConcurrent env exc
  throw exc

def observe (head : Int × Option String) : Py EventStore Unit :=
  modify fun self => { self with expectedNextSeq := head.1, expectedHeadHash := head.2 }

def append (event : Event F X) : Py EventStore Unit := do
  let encoded ← lift (eventToRecord env event)
  ensureOpen
  beginTransaction
  Method.tryElse (appendTransaction env event encoded)
    (abandon env [.duplicateEventError, .concurrentWriterError]) observe

/-- `boundaries[event_id]`: the last row with the id. -/
def boundarySeq (rows : List EventRow) (runId eventId : String) : Except PyErr Int :=
  match rows.reverse.find? fun row => row.eventId = eventId with
  | some row => .ok row.seq
  | none => .error (eventNotFound env eventId runId)

def boundary (rows : List EventRow) (runId : String) : Option String → Except PyErr (Option Int)
  | none => .ok none
  | some eventId => return some (← boundarySeq env rows runId eventId)

/-- The rows strictly after the one boundary and up to the other. -/
def between (rows : List EventRow) (afterSeq untilSeq : Option Int) : List EventRow :=
  rows.filter fun row => afterSeq.all (· < row.seq) && untilSeq.all (row.seq ≤ ·)

def iterEvents (after until_ : Option String) : Py EventStore (List (Event F X)) := do
  let self ← get
  let (rows, _) ← verifiedRowsAndRun env
  lift do
    let afterSeq ← boundary env rows self.runId after
    let untilSeq ← boundary env rows self.runId until_
    (between rows afterSeq untilSeq).mapM fun row => recordToEvent env row.toEventRecord

def getEvent (eventId : String) : Py EventStore (Option (Event F X)) := do
  ensureOpen
  let record ← eventRecord env eventId
  match ← query (.selectEvent record) with
  | none => return none
  | some row =>
    assertRowScope row
    return some (← lift (recordToEvent env row.toEventRecord))

def count : Py EventStore Int := do
  let self ← get
  ensureOpen
  return (← query (.countEvents self.scope self.runId)).getD 0

/-- The guarded part of `truncate_after`: the new head that it has committed. -/
def truncateTransaction (eventId : String) : Py EventStore (Int × Option String) := do
  let self ← get
  let head ← transactionRunRow env
  assertExpectedHead env head
  let record ← eventRecord env eventId
  match ← txQuery (.selectEvent record) with
  | none => throw (eventNotFound env eventId self.runId)
  | some cutoff =>
    assertRowScope cutoff
    txQuery (.deleteEventsAfter self.scope self.runId cutoff.seq)
    txQuery (.mergeHead self.runRecord (cutoff.seq + 1) (some cutoff.hash))
    commit
    return (cutoff.seq + 1, some cutoff.hash)

def truncateAfter (eventId : String) : Py EventStore Unit := do
  ensureOpen
  beginTransaction
  Method.tryElse (truncateTransaction env eventId)
    (abandon env [.eventNotFoundError, .concurrentWriterError]) observe

def close : Py EventStore Unit := modify fun self => { self with closed := true }

/-! ### Run metadata -/

def getRun : Py EventStore (Option RunRecord) := do
  ensureOpen
  match ← readRunRow with
  | none => return none
  | some row => return some ⟨row.runId, row.parentRunId, row.forkedAtEventId, row.label,
      row.createdAt, row.goal, row.frameId⟩

def upsertRun (patch : RunPatch) (createdAt : String) : Py EventStore Unit := do
  let self ← get
  ensureOpen
  match ← readRunRow with
  | none =>
    query (.createRun self.runRecord { newRun self.scope self.runId createdAt with
      parentRunId := patch.parentRunId
      forkedAtEventId := patch.forkedAtEventId
      label := patch.label
      goal := patch.goal
      frameId := patch.frameId })
  | some _ =>
    if patch = ⟨none, none, none, none, none⟩ then pure ()
    else query (.mergeRun self.runRecord patch)

/-! ### The prefix fork -/

/-- The rows of the child, re-hashed from position `seq` on, and its last hash. -/
def childEvents (scope newRunId : String) (seq : Nat) (previousHash : Option String) :
    List (Event F X) → Except PyErr (List (RecordId .agEvent × EventRow) × Option String)
  | [] => return ([], previousHash)
  | event :: events => do
    let currentHash ← eventHash env scope newRunId seq event previousHash
    let record ← recordId env.sha256 .agEvent [scope, newRunId, event.id]
    let content := eventRow scope newRunId (← eventToRecord env event) seq previousHash currentHash
    let (rest, head) ← childEvents scope newRunId (seq + 1) (some currentHash) events
    return ((record, content) :: rest, head)

def createEvents {ℓ : Type} : List (RecordId .agEvent × EventRow) → Py ℓ Unit
  | [] => pure ()
  | (record, content) :: rest => do
    txQuery (.createEvent record content)
    createEvents rest

/-- The guarded part of `fork_prefix`. Touching the parent head makes concurrent truncation
and append conflict with this transaction without changing values. -/
def forkTransaction (newRunId : String) (rows : List EventRow) (parentRow child : RunRow)
    (childRecord : RecordId .agRun) (events : List (RecordId .agEvent × EventRow)) :
    Py EventStore Unit := do
  let self ← get
  let currentParent ← transactionRunRow env
  lift (raiseIf (currentParent.nextSeq ≠ rows.length ∨ currentParent.headHash ≠ parentRow.headHash)
    ⟨.concurrentWriterError, "parent run " ++ env.repr self.runId ++ " changed during fork"⟩)
  let existing ← txQuery (.selectRun childRecord)
  lift (raiseIf existing.isSome (runExistsError env newRunId))
  txQuery (.mergeHead self.runRecord parentRow.nextSeq parentRow.headHash)
  txQuery (.createRun childRecord child)
  createEvents events
  commit

def abandonFork (newRunId : String) (exc : PyErr) : Py EventStore EventStore := do
  cancelSafely
  lift (raiseIf (exc.cls = .concurrentWriterError ∨ exc.cls = .runAlreadyExistsError) exc)
  let taken ← destinationExists env newRunId
  lift (raiseIf taken (runExistsError env newRunId))
  raiseIfConcurrent env exc
  throw exc

def childRun (self : EventStore) (newRunId atEventId : String) (label : Option String)
    (now : String) (parentRow : RunRow) (count : Nat) (headHash : Option String) : RunRow where
  scope := self.scope
  runId := newRunId
  parentRunId := some self.runId
  forkedAtEventId := some atEventId
  label := label
  createdAt := now
  goal := parentRow.goal
  frameId := parentRow.frameId
  nextSeq := count
  headHash := headHash

/-- The rows up to and with the first one of the id. -/
def prefixRows (atEventId : String) (rows : List EventRow) : Option (List EventRow) :=
  match rows.findIdx? fun row => row.eventId = atEventId with
  | none => none
  | some index => some (rows.take (index + 1))

/-- `now` is the clock of the child's row and `now'` the clock in the child's constructor. -/
def forkPrefix (newRunId atEventId : String) (label : Option String) (now now' : String) :
    Py EventStore EventStore := do
  let self ← get
  ensureOpen
  let (rows, parentRow) ← verifiedRowsAndRun env
  assertExpectedHead env parentRow
  lift (raiseIf (rows.head?.any fun row => row.eventType = "runtime.snapshot")
    ⟨.unsupportedCompactedRunError, "runtime.snapshot logs are outside the preview fork contract"⟩)
  match prefixRows atEventId rows with
  | none => throw ⟨.forkPointNotFoundError,
      "fork point " ++ env.repr atEventId ++ " is absent from run " ++ env.repr self.runId⟩
  | some kept =>
    let taken ← destinationExists env newRunId
    lift (raiseIf taken (runExistsError env newRunId))
    let events ← lift (kept.mapM fun row => recordToEvent env row.toEventRecord)
    let childRecord ← lift (recordId env.sha256 .agRun [self.scope, newRunId])
    let (rowsOfChild, headHash) ←
      lift (childEvents env self.scope newRunId 0 none events)
    let child := childRun self newRunId atEventId label now parentRow rowsOfChild.length headHash
    beginTransaction
    Method.tryElse (forkTransaction env newRunId rows parentRow child childRecord rowsOfChild)
      (abandonFork env newRunId) fun _ => new env newRunId self.scope now'

end EventStore

end ActiveGraphSurreal
