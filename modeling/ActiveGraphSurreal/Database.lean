import ActiveGraphSurreal.Serde
import ActiveGraphSurreal.Library.Records
import ActiveGraphSurreal.Library.SnapshotDb

/-!
# The database

The tables of `schema.surql` and the statements that the provider sends. Each statement
carries its bound variables; its SurrealQL text is its comment.
-/

namespace ActiveGraphSurreal

open Library

/-! ### Tables -/

structure SchemaRow where
  version : Int
  installedAt : String
  deriving DecidableEq, Repr

structure RunRow where
  scope : String
  runId : String
  parentRunId : Option String
  forkedAtEventId : Option String
  label : Option String
  createdAt : String
  goal : Option String
  frameId : Option String
  nextSeq : Int
  headHash : Option String
  deriving DecidableEq, Repr

structure EventRow extends EventRecord where
  scope : String
  runId : String
  seq : Int
  previousHash : Option String
  hash : String
  deriving DecidableEq, Repr

structure ProjectionRow where
  scope : String
  runId : String
  status : String
  error : Option String
  deriving DecidableEq, Repr

/-- Rows of older schemas have no `object_seq`; placeholders have no content. -/
structure VertexRow where
  scope : String
  runId : String
  objectId : String
  objectPresent : Bool
  objectSeq : Option Int
  objectType : Option String
  dataJson : Option String
  version : Option Int
  provenanceJson : Option String
  deriving DecidableEq, Repr

/-- `source` and `target` are logical ids, `in` and `out` the keys of the vertices. -/
structure RelationRow extends RelationRecord where
  scope : String
  runId : String
  inKey : String
  outKey : String
  deriving DecidableEq, Repr

structure PatchRow extends PatchRecord where
  scope : String
  runId : String
  deriving DecidableEq, Repr

structure Tables where
  defined : List Table
  schema : Option SchemaRow
  run : Records RunRow
  event : Records EventRow
  projection : Records ProjectionRow
  vertex : Records VertexRow
  relation : Records RelationRow
  patch : Records PatchRow

def Tables.empty : Tables := ⟨[], none, ∅, ∅, ∅, ∅, ∅, ∅⟩

/-! ### Writes -/

/-- The new content of one record, `none` for a deletion. -/
inductive Write where
  | define (table : Table)
  | schema (row : SchemaRow)
  | run (key : String) (row : Option RunRow)
  | event (key : String) (row : Option EventRow)
  | projection (key : String) (row : Option ProjectionRow)
  | vertex (key : String) (row : Option VertexRow)
  | relation (key : String) (row : Option RelationRow)
  | patch (key : String) (row : Option PatchRow)

/-- What a write goes to. -/
inductive Target where
  | definition (table : Table)
  | record (table : Table) (key : String)
  deriving DecidableEq

def Write.target : Write → Target
  | define table => .definition table
  | schema _ => .record .agSchema "singleton"
  | run key _ => .record .agRun key
  | event key _ => .record .agEvent key
  | projection key _ => .record .agProjection key
  | vertex key _ => .record .agVertex key
  | relation key _ => .record .agRelation key
  | patch key _ => .record .agPatch key

def Write.apply (w : Write) (t : Tables) : Tables :=
  match w with
  | define table => { t with defined := table :: t.defined }
  | schema row => { t with schema := some row }
  | run key row => { t with run := t.run.write key row }
  | event key row => { t with event := t.event.write key row }
  | projection key row => { t with projection := t.projection.write key row }
  | vertex key row => { t with vertex := t.vertex.write key row }
  | relation key row => { t with relation := t.relation.write key row }
  | patch key row => { t with patch := t.patch.write key row }

/-! ### Statements -/

/-- A statement of `schema.surql`, each with `IF NOT EXISTS`. -/
inductive Ddl where
  | table (table : Table)
  | field (table : Table) (name type : String)
  | index (table : Table) (name : String) (fields : List String) (isUnique : Bool)

inductive ObjectFilter where
  | any
  | ofType (objectType : String)
  | inTypes (types : List String)
  | withIds (ids : List String)

inductive RelationFilter where
  | matching (source target relationType : Option String)
  | touching (frontier : List String)
  | withIds (ids : List String)

/-- The fields of `upsert_run`; an absent one is not in the patch. -/
structure RunPatch where
  parentRunId : Option String
  forkedAtEventId : Option String
  label : Option String
  goal : Option String
  frameId : Option String
  deriving DecidableEq

inductive Stmt where
  /-- The sign-in, the choice of the database and the new session of a connection. -/
  | connect
  /-- `SELECT * FROM ONLY $schema;` -/
  | selectSchema
  | define (ddl : Ddl)
  /-- `CREATE $schema CONTENT $content;` -/
  | createSchema (row : SchemaRow)
  /-- `UPDATE ONLY $schema SET version = $version;` -/
  | updateSchemaVersion (version : Int)
  /-- `RETURN time::now();` -/
  | timeNow
  /-- `SELECT * FROM ONLY $run;` -/
  | selectRun (record : RecordId .agRun)
  /-- `CREATE $run CONTENT $content;` -/
  | createRun (record : RecordId .agRun) (content : RunRow)
  /-- `transaction.merge(run, {"next_seq": …, "head_hash": …})` -/
  | mergeHead (record : RecordId .agRun) (nextSeq : Int) (headHash : Option String)
  /-- `UPDATE ONLY $run MERGE $patch;` -/
  | mergeRun (record : RecordId .agRun) (patch : RunPatch)
  /-- `SELECT * FROM ONLY $event;` -/
  | selectEvent (record : RecordId .agEvent)
  /-- `SELECT * FROM ag_event WHERE scope = $scope AND run_id = $run_id ORDER BY seq ASC;` -/
  | selectEvents (scope runId : String)
  /-- `SELECT count() AS count FROM ag_event WHERE scope = $scope AND run_id = $run_id GROUP ALL;` -/
  | countEvents (scope runId : String)
  /-- `transaction.create(event, content)` -/
  | createEvent (record : RecordId .agEvent) (content : EventRow)
  /-- `DELETE ag_event WHERE scope = $scope AND run_id = $run_id AND seq > $cutoff_seq;` -/
  | deleteEventsAfter (scope runId : String) (cutoffSeq : Int)
  /-- `SELECT * FROM ONLY $projection;` -/
  | selectProjection (record : RecordId .agProjection)
  /-- `CREATE $projection CONTENT $content;` -/
  | createProjection (record : RecordId .agProjection) (content : ProjectionRow)
  | upsertProjection (record : RecordId .agProjection) (content : ProjectionRow)
  | selectVertex (record : RecordId .agVertex)
  | createVertex (record : RecordId .agVertex) (content : VertexRow)
  | upsertVertex (record : RecordId .agVertex) (content : VertexRow)
  /-- `SELECT * FROM ag_vertex WHERE scope = $scope AND run_id = $run_id AND
  object_present = true …`, with or without `ORDER BY object_seq ASC, object_id ASC`. -/
  | selectObjects (scope runId : String) (filter : ObjectFilter) (ordered : Bool)
      (limit : Option Int)
  | selectRelation (record : RecordId .agRelation)
  | deleteRelation (record : RecordId .agRelation)
  | insertRelation (record : RecordId .agRelation) (content : RelationRow)
  /-- `SELECT * FROM ag_relation WHERE scope = $scope AND run_id = $run_id …`, with or without
  `ORDER BY relation_id ASC`. -/
  | selectRelations (scope runId : String) (filter : RelationFilter) (ordered : Bool)
  | selectPatch (record : RecordId .agPatch)
  | upsertPatch (record : RecordId .agPatch) (content : PatchRow)
  | deletePatch (record : RecordId .agPatch)
  /-- `SELECT * FROM ag_patch WHERE scope = $scope AND run_id = $run_id ORDER BY patch_id ASC;` -/
  | selectPatches (scope runId : String)
  /-- `DELETE ag_relation WHERE scope = $scope AND run_id = $run_id;` -/
  | deleteRelations (scope runId : String)
  /-- `DELETE ag_patch WHERE scope = $scope AND run_id = $run_id;` -/
  | deletePatches (scope runId : String)
  /-- `DELETE ag_vertex WHERE scope = $scope AND run_id = $run_id;` -/
  | deleteVertices (scope runId : String)

abbrev Stmt.Reply : Stmt → Type
  | selectSchema => Option SchemaRow
  | timeNow => String
  | selectRun _ => Option RunRow
  | selectEvent _ => Option EventRow
  | selectEvents _ _ => List EventRow
  | countEvents _ _ => Option Int
  | selectProjection _ => Option ProjectionRow
  | selectVertex _ => Option VertexRow
  | selectObjects .. => List VertexRow
  | selectRelation _ => Option RelationRow
  | selectRelations .. => List RelationRow
  | selectPatch _ => Option PatchRow
  | selectPatches _ _ => List PatchRow
  | _ => Unit

/-- Why a statement or a commit can fail. -/
inductive SdkFailure where
  | undefinedTable (table : Table)
  | recordExists (table : Table) (key : String)
  | indexContains (index : String)
  | badValue (field : String)
  | writeConflict
  | noTransaction
  deriving DecidableEq

/-- What the server and its client library are free to choose: the classes and texts of
their errors, the clock, the order of rows where no order is asked for, and the largest
`LIMIT` that is taken. -/
structure Sdk where
  className : SdkFailure → String
  text : SdkFailure → String
  now : String
  scan : List RelationRow → List RelationRow
  maxLimit : Int
  one_le_maxLimit : 1 ≤ maxLimit

def Sdk.error (sdk : Sdk) (f : SdkFailure) : PyErr :=
  match f with
  | .undefinedTable _ => ⟨.notFoundError, sdk.text f⟩
  | _ => ⟨.other (sdk.className f), sdk.text f⟩

/-! ### Queries -/

def ObjectFilter.accepts (row : VertexRow) : ObjectFilter → Bool
  | any => true
  | ofType objectType => row.objectType = some objectType
  | inTypes types => types.any fun t => row.objectType = some t
  | withIds ids => row.objectId ∈ ids

def RelationFilter.accepts (row : RelationRow) : RelationFilter → Bool
  | matching source target relationType =>
    source.all (· = row.source) && target.all (· = row.target) &&
      relationType.all (· = row.relationType)
  | touching frontier => row.source ∈ frontier || row.target ∈ frontier
  | withIds ids => row.relationId ∈ ids

/-- A missing value sorts before every number. -/
def seqLE : Option Int → Option Int → Bool
  | none, _ => true
  | some _, none => false
  | some m, some n => m ≤ n

/-- `ORDER BY object_seq ASC, object_id ASC` -/
def objectLE (a b : VertexRow) : Bool :=
  if a.objectSeq = b.objectSeq then a.objectId ≤ b.objectId else seqLE a.objectSeq b.objectSeq

def relationLE (a b : RelationRow) : Bool := a.relationId ≤ b.relationId

def patchLE (a b : PatchRow) : Bool := a.patchId ≤ b.patchId

/-- The rows of one run, in the order of their sequence numbers. -/
def Tables.eventRows (t : Tables) (scope runId : String) : List EventRow :=
  (t.event.rows.filter fun row => row.scope = scope && row.runId = runId).insertionSort
    fun a b => a.seq ≤ b.seq

def Tables.objectRows (t : Tables) (scope runId : String) : List VertexRow :=
  t.vertex.rows.filter fun row => row.scope = scope && row.runId = runId && row.objectPresent

def Tables.relationRows (t : Tables) (scope runId : String) : List RelationRow :=
  t.relation.rows.filter fun row => row.scope = scope && row.runId = runId

def Tables.patchRows (t : Tables) (scope runId : String) : List PatchRow :=
  t.patch.rows.filter fun row => row.scope = scope && row.runId = runId

/-! ### Execution -/

/-- The range of the type `int` of a field. -/
def fitsInt (n : Int) : Bool := -2 ^ 63 ≤ n && n < 2 ^ 63

/-- What a field of type `int` holds of a bound number. The client sends a sign and up to 64
bits; the field keeps 64 bits and takes them as signed. A longer number is no integer to the
server. -/
def storedInt (n : Int) : Option Int :=
  if -2 ^ 64 ≤ n ∧ n < 2 ^ 64 then some (n.bmod (2 ^ 64)) else none

def intField (sdk : Sdk) (field : String) (n : Int) : Except PyErr Int :=
  match storedInt n with
  | none => .error (sdk.error (.badValue field))
  | some m => .ok m

/-- The content of a vertex as its fields hold it. -/
def VertexRow.stored (sdk : Sdk) (content : VertexRow) : Except PyErr VertexRow := do
  let objectSeq ← content.objectSeq.mapM (intField sdk "object_seq")
  let version ← content.version.mapM (intField sdk "version")
  return { content with objectSeq, version }

/-- The content of a patch as its fields hold it. -/
def PatchRow.stored (sdk : Sdk) (content : PatchRow) : Except PyErr PatchRow := do
  let expectedVersion ← intField sdk "expected_version" content.expectedVersion
  return { content with expectedVersion }

/-- `CREATE`: no record may be there, nor another one with the same index entries. -/
def create {R : Type} (sdk : Sdk) (table : Table) (index : String) (t : Records R) (key : String)
    (same : R → Bool) (w : Write) : Except PyErr (Unit × List Write) :=
  if (t.lookup key).isSome then .error (sdk.error (.recordExists table key))
  else if t.anyElse key same then .error (sdk.error (.indexContains index))
  else .ok ((), [w])

/-- `UPSERT`: the content of the record is replaced. -/
def upsert {R : Type} (sdk : Sdk) (index : String) (t : Records R) (key : String)
    (same : R → Bool) (w : Write) : Except PyErr (Unit × List Write) :=
  if t.anyElse key same then .error (sdk.error (.indexContains index)) else .ok ((), [w])

/-- `MERGE` of the fields of a patch. -/
def RunPatch.merge (patch : RunPatch) (row : RunRow) : RunRow := { row with
  parentRunId := patch.parentRunId <|> row.parentRunId
  forkedAtEventId := patch.forkedAtEventId <|> row.forkedAtEventId
  label := patch.label <|> row.label
  goal := patch.goal <|> row.goal
  frameId := patch.frameId <|> row.frameId }

def update (t : Records RunRow) (key : String) (f : RunRow → RunRow) : Unit × List Write :=
  match t.lookup key with
  | none => ((), [])
  | some row => ((), [.run key (some (f row))])

def vertexClash (content row : VertexRow) : Bool :=
  row.scope = content.scope && row.runId = content.runId && row.objectId = content.objectId

def relationClash (content row : RelationRow) : Bool :=
  row.scope = content.scope && row.runId = content.runId && row.relationId = content.relationId

def patchClash (content row : PatchRow) : Bool :=
  row.scope = content.scope && row.runId = content.runId && row.patchId = content.patchId

def eventClash (content row : EventRow) : Bool :=
  row.scope = content.scope && row.runId = content.runId &&
    (row.eventId = content.eventId || row.seq = content.seq)

def runClash (content row : RunRow) : Bool :=
  row.scope = content.scope && row.runId = content.runId

def projectionClash (content row : ProjectionRow) : Bool :=
  row.scope = content.scope && row.runId = content.runId

/-- Deleting a vertex deletes the edges at it. -/
def deleteVertices (t : Tables) (scope runId : String) : List Write :=
  let keys := t.vertex.keysWhere fun row => row.scope = scope && row.runId = runId
  let edges := t.relation.keysWhere fun row => row.inKey ∈ keys || row.outKey ∈ keys
  edges.map (.relation · none) ++ keys.map (.vertex · none)

def takeLimit {R : Type} (sdk : Sdk) (limit : Option Int) (rows : List R) :
    Except PyErr (List R × List Write) :=
  match limit with
  | none => .ok (rows, [])
  | some n =>
    if n < 0 ∨ sdk.maxLimit < n then .error (sdk.error (.badValue "LIMIT"))
    else .ok (rows.take n.toNat, [])

def Stmt.exec (sdk : Sdk) : (st : Stmt) → Tables → Except PyErr (st.Reply × List Write)
  | connect, _ => .ok ((), [])
  | selectSchema, t =>
    if .agSchema ∈ t.defined then .ok (t.schema, [])
    else .error (sdk.error (.undefinedTable .agSchema))
  | define (.table table), t => .ok ((), if table ∈ t.defined then [] else [.define table])
  | define _, _ => .ok ((), [])
  | createSchema row, t =>
    if t.schema.isSome then .error (sdk.error (.recordExists .agSchema "singleton"))
    else .ok ((), [.schema row])
  | updateSchemaVersion version, t =>
    match t.schema with
    | none => .ok ((), [])
    | some row => .ok ((), [.schema { row with version }])
  | timeNow, _ => .ok (sdk.now, [])
  | selectRun record, t => .ok (t.run.lookup record.key, [])
  | createRun record content, t =>
    create sdk .agRun "ag_run_scope_run" t.run record.key (runClash content)
      (.run record.key (some content))
  | mergeHead record nextSeq headHash, t =>
    .ok (update t.run record.key fun row => { row with nextSeq, headHash })
  | mergeRun record patch, t => .ok (update t.run record.key patch.merge)
  | selectEvent record, t => .ok (t.event.lookup record.key, [])
  | selectEvents scope runId, t => .ok (t.eventRows scope runId, [])
  | countEvents scope runId, t =>
    match t.eventRows scope runId with
    | [] => .ok (none, [])
    | rows => .ok (some rows.length, [])
  | createEvent record content, t =>
    create sdk .agEvent "ag_event_scope_run_id" t.event record.key (eventClash content)
      (.event record.key (some content))
  | deleteEventsAfter scope runId cutoffSeq, t =>
    .ok ((), (t.event.keysWhere fun row =>
      row.scope = scope && row.runId = runId && cutoffSeq < row.seq).map (.event · none))
  | selectProjection record, t => .ok (t.projection.lookup record.key, [])
  | createProjection record content, t =>
    create sdk .agProjection "ag_projection_scope_run" t.projection record.key
      (projectionClash content) (.projection record.key (some content))
  | upsertProjection record content, t =>
    upsert sdk "ag_projection_scope_run" t.projection record.key (projectionClash content)
      (.projection record.key (some content))
  | selectVertex record, t => .ok (t.vertex.lookup record.key, [])
  | createVertex record content, t => do
    let row ← content.stored sdk
    create sdk .agVertex "ag_vertex_scope_run_id" t.vertex record.key (vertexClash content)
      (.vertex record.key (some row))
  | upsertVertex record content, t => do
    let row ← content.stored sdk
    upsert sdk "ag_vertex_scope_run_id" t.vertex record.key (vertexClash content)
      (.vertex record.key (some row))
  | selectObjects scope runId filter ordered limit, t =>
    let rows := (t.objectRows scope runId).filter filter.accepts
    takeLimit sdk limit (if ordered then rows.insertionSort fun a b => objectLE a b else rows)
  | selectRelation record, t => .ok (t.relation.lookup record.key, [])
  | deleteRelation record, _ => .ok ((), [.relation record.key none])
  | insertRelation record content, t =>
    create sdk .agRelation "ag_relation_scope_run_id" t.relation record.key
      (relationClash content) (.relation record.key (some content))
  | selectRelations scope runId filter ordered, t =>
    let rows := (t.relationRows scope runId).filter filter.accepts
    .ok (if ordered then rows.insertionSort fun a b => relationLE a b else sdk.scan rows, [])
  | selectPatch record, t => .ok (t.patch.lookup record.key, [])
  | upsertPatch record content, t => do
    let row ← content.stored sdk
    upsert sdk "ag_patch_scope_run_id" t.patch record.key (patchClash content)
      (.patch record.key (some row))
  | deletePatch record, _ => .ok ((), [.patch record.key none])
  | selectPatches scope runId, t =>
    .ok ((t.patchRows scope runId).insertionSort fun a b => patchLE a b, [])
  | deleteRelations scope runId, t =>
    .ok ((), (t.relation.keysWhere fun row => row.scope = scope && row.runId = runId).map
      (.relation · none))
  | deletePatches scope runId, t =>
    .ok ((), (t.patch.keysWhere fun row => row.scope = scope && row.runId = runId).map
      (.patch · none))
  | deleteVertices scope runId, t => .ok ((), ActiveGraphSurreal.deleteVertices t scope runId)

def engine (sdk : Sdk) : Engine Tables Write Target PyErr Stmt Stmt.Reply where
  exec := Stmt.exec sdk
  apply := Write.apply
  target := Write.target
  conflict := sdk.error .writeConflict
  noTransaction := sdk.error .noTransaction

/-! ### Calls of the provider -/

abbrev Database := Db Nat Tables Write Target

def freshDatabase : Database := ⟨Tables.empty, [], fun _ => none⟩

abbrev Call := DbCall Stmt

abbrev Answer := DbAnswer PyErr Stmt.Reply

/-- Code with local state `ℓ` that calls the database. -/
abbrev Py (ℓ α : Type) := Method Call Answer PyErr ℓ α

section

variable {ℓ : Type}

/-- A computation without calls. -/
def lift {α : Type} : Except PyErr α → Py ℓ α := Method.lift

/-- `connection.query(statement, variables)` -/
def query (st : Stmt) : Py ℓ st.Reply := fun l => .call (.query st) fun r => .done (r, l)

/-- `transaction.query(statement, variables)` and the like -/
def txQuery (st : Stmt) : Py ℓ st.Reply := fun l => .call (.txQuery st) fun r => .done (r, l)

def beginTransaction : Py ℓ Unit := fun l => .call .begin fun r => .done (r, l)

def commit : Py ℓ Unit := fun l => .call .commit fun r => .done (r, l)

/-- `with suppress(BaseException): transaction.cancel()` -/
def cancelSafely : Py ℓ Unit := fun l => .call .cancel fun _ => .done (.ok (), l)

end

/-- Calls are carried out, or fail with an error of the client library: without effect if
`lostCall`, after their effect if `lostAnswer`. -/
def faults (lostCall lostAnswer : Prop) : Faults PyErr := ⟨lostCall, lostAnswer, fun e => e.cls.IsSdk⟩

end ActiveGraphSurreal
