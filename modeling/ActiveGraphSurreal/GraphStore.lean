import ActiveGraphSurreal.Connection

/-!
# The graph store

`GraphStore` is the state of one handle. A Python set is a list without duplicates here.
-/

namespace ActiveGraphSurreal

open Library

/-! ### The counter in an object id -/

/-- The zero of each block of ten decimal digits. -/
def decimalZeros : List Nat := [
  0x30, 0x660, 0x6f0, 0x7c0, 0x966, 0x9e6, 0xa66, 0xae6, 0xb66, 0xbe6, 0xc66, 0xce6, 0xd66, 0xde6,
  0xe50, 0xed0, 0xf20, 0x1040, 0x1090, 0x17e0, 0x1810, 0x1946, 0x19d0, 0x1a80, 0x1a90, 0x1b50,
  0x1bb0, 0x1c40, 0x1c50, 0xa620, 0xa8d0, 0xa900, 0xa9d0, 0xa9f0, 0xaa50, 0xabf0, 0xff10, 0x104a0,
  0x10d30, 0x11066, 0x110f0, 0x11136, 0x111d0, 0x112f0, 0x11450, 0x114d0, 0x11650, 0x116c0,
  0x11730, 0x118e0, 0x11950, 0x11c50, 0x11d50, 0x11da0, 0x16a60, 0x16ac0, 0x16b50, 0x1d7ce,
  0x1d7d8, 0x1d7e2, 0x1d7ec, 0x1d7f6, 0x1e140, 0x1e2f0, 0x1e950, 0x1fbf0]

/-- The value of a character that `\d` matches. -/
def decimalValue (c : Char) : Option Nat :=
  (decimalZeros.find? fun base => base ≤ c.toNat && c.toNat < base + 10).map (c.toNat - ·)

/-- The digits that `#(?P<seq>\d+)$` finds; `$` also matches before a final newline. -/
def objectSeqDigits (cs : List Char) : Option (List Char) :=
  let text := (if cs.getLast? = some '\n' then cs.dropLast else cs).reverse
  let digits := text.takeWhile fun c => (decimalValue c).isSome
  match digits, text.drop digits.length with
  | _ :: _, '#' :: _ => some digits.reverse
  | _, _ => none

/-- `sys.int_info.default_max_str_digits` -/
def maxStrDigits : Nat := 4300

/-- `int(digits)` -/
def intOfDigits (digits : List Char) : Except PyErr Int := do
  raiseIf (maxStrDigits < digits.length) ⟨.valueError, "Exceeds the limit (" ++
    toString maxStrDigits ++ " digits) for integer string conversion: value has " ++
    toString digits.length ++ " digits; use sys.set_int_max_str_digits() to increase the limit"⟩
  return digits.foldl (fun n c => 10 * n + (decimalValue c).getD 0) 0

def objectSeq (objectId : String) : Except PyErr Int :=
  match objectSeqDigits objectId.toList with
  | none => .ok 0
  | some digits => intOfDigits digits

/-! ### Handles -/

structure GraphStore where
  scope : String
  runId : String
  closed : Bool
  rebuildingHere : Bool
  projectionRecord : RecordId .agProjection
  deriving DecidableEq

structure ObjectQuery (F X : Type) where
  type : Option String
  where_ : Option (List (String × PyValue F X))
  limit : Option Int
  resultMode : String

structure ObjectQueryResult (F X : Type) where
  candidates : List (Object F X)
  residualWhere : List (String × PyValue F X)
  exists_ : Option Bool

variable {F X : Type} [Json.ScalarText F] (env : Env F X)

def keyError (field : String) : PyErr := ⟨.other "KeyError", env.repr field⟩

def required {α : Type} (field : String) : Option α → Except PyErr α
  | some a => .ok a
  | none => .error (keyError env field)

/-- `object_from_record(row)`; the fields without a value are not in the row. -/
def objectFromRow (row : VertexRow) : Except PyErr (Object F X) := do
  let objectType ← required env "object_type" row.objectType
  let dataJson ← required env "data_json" row.dataJson
  let data ← loads env dataJson
  let version ← required env "version" row.version
  let provenanceJson ← required env "provenance_json" row.provenanceJson
  return {
    id := row.objectId
    type := objectType
    data := plain data
    version := version
    provenance := plain (← loads env provenanceJson) }

namespace GraphStore

/-! ### Guards -/

def ensureOpen : Py GraphStore Unit := do
  let self ← get
  lift (raiseIf self.closed ⟨.closedStoreError, "the SurrealGraphStore is closed"⟩)

/-- `logical` is the logical id of the row and the expected one. -/
def assertScopedRow (scope runId : String) (logical : Option (String × String)) :
    Py GraphStore Unit := do
  let self ← get
  lift (raiseIf (scope ≠ self.scope ∨ runId ≠ self.runId)
    ⟨.surrealProviderError, "a graph record crossed its scope/run boundary"⟩)
  lift (raiseIf (logical.any fun ids => ids.1 ≠ ids.2)
    ⟨.surrealProviderError, "an opaque graph record ID resolved incorrectly"⟩)

def projectionRow : Py GraphStore (Option ProjectionRow) := do
  let self ← get
  match ← query (.selectProjection self.projectionRecord) with
  | none => return none
  | some row =>
    assertScopedRow row.scope row.runId none
    return some row

def projectionStatus : Py GraphStore String := do
  ensureOpen
  match ← projectionRow with
  | none => throw ⟨.projectionUnavailableError, "projection metadata is incomplete"⟩
  | some row => return row.status

/-- The status and the own flag allow current-state access. -/
def serves (self : GraphStore) (status : String) : Prop :=
  status = "ready" ∨ status = "rebuilding" ∧ self.rebuildingHere

instance (self : GraphStore) (status : String) : Decidable (self.serves status) :=
  inferInstanceAs (Decidable (_ ∨ _))

def assertReadable : Py GraphStore Unit := do
  let self ← get
  ensureOpen
  let status ← projectionStatus
  lift (raiseIf (¬ self.serves status) ⟨.projectionUnavailableError,
    "projection is " ++ status ++ "; current-state data is incomplete"⟩)

def assertWritable : Py GraphStore Unit := assertReadable

def vertexRecordId (objectId : String) : Py GraphStore (RecordId .agVertex) := do
  let self ← get
  lift (recordId env.sha256 .agVertex [self.scope, self.runId, objectId])

def relationRecordId (relationId : String) : Py GraphStore (RecordId .agRelation) := do
  let self ← get
  lift (recordId env.sha256 .agRelation [self.scope, self.runId, relationId])

def patchRecordId (patchId : String) : Py GraphStore (RecordId .agPatch) := do
  let self ← get
  lift (recordId env.sha256 .agPatch [self.scope, self.runId, patchId])

/-! ### Objects -/

def objectContent (self : GraphStore) (seq : Int) (record : ObjectRecord) : VertexRow where
  scope := self.scope
  runId := self.runId
  objectId := record.objectId
  objectPresent := true
  objectSeq := some seq
  objectType := some record.objectType
  dataJson := some record.dataJson
  version := some record.version
  provenanceJson := some record.provenanceJson

def placeholderRow (self : GraphStore) (objectId : String) (seq : Int) : VertexRow where
  scope := self.scope
  runId := self.runId
  objectId := objectId
  objectPresent := false
  objectSeq := some seq
  objectType := none
  dataJson := none
  version := none
  provenanceJson := none

def placeholderContent (objectId : String) : Py GraphStore VertexRow := do
  let self ← get
  return self.placeholderRow objectId (← lift (objectSeq objectId))

def putObject (obj : Object F X) : Py GraphStore Unit := do
  assertWritable
  let self ← get
  let seq ← lift (objectSeq obj.id)
  let record ← lift (objectToRecord env obj)
  let vertex ← vertexRecordId env obj.id
  query (.upsertVertex vertex (self.objectContent seq record))

def getObject (objectId : String) : Py GraphStore (Option (Object F X)) := do
  assertReadable
  let vertex ← vertexRecordId env objectId
  match ← query (.selectVertex vertex) with
  | none => return none
  | some row =>
    if row.objectPresent then
      assertScopedRow row.scope row.runId (some (row.objectId, objectId))
      return some (← lift (objectFromRow env row))
    else return none

def removeObject (objectId : String) : Py GraphStore Unit := do
  assertWritable
  let vertex ← vertexRecordId env objectId
  match ← query (.selectVertex vertex) with
  | none => pure ()
  | some row =>
    assertScopedRow row.scope row.runId (some (row.objectId, objectId))
    let content ← placeholderContent objectId
    query (.upsertVertex vertex content)

def allObjects : Py GraphStore (List (Object F X)) := do
  assertReadable
  let self ← get
  let rows ← query (.selectObjects self.scope self.runId .any true none)
  lift (rows.mapM (objectFromRow env))

/-! ### Relations -/

def ensurePlaceholderInTransaction (vertex : RecordId .agVertex) (objectId : String) :
    Py GraphStore Unit := do
  match ← txQuery (.selectVertex vertex) with
  | none =>
    let content ← placeholderContent objectId
    txQuery (.createVertex vertex content)
  | some row => assertScopedRow row.scope row.runId (some (row.objectId, objectId))

def relationContent (self : GraphStore) (source target : RecordId .agVertex)
    (record : RelationRecord) : RelationRow where
  toRelationRecord := record
  scope := self.scope
  runId := self.runId
  inKey := source.key
  outKey := target.key

def relationTransaction (rel : Relation F X) (source target : RecordId .agVertex)
    (relation : RecordId .agRelation) : Py GraphStore Unit := do
  let self ← get
  ensurePlaceholderInTransaction source rel.source
  ensurePlaceholderInTransaction target rel.target
  txQuery (.deleteRelation relation)
  let record ← lift (relationToRecord env rel)
  txQuery (.insertRelation relation (self.relationContent source target record))
  commit

def putRelation (rel : Relation F X) : Py GraphStore Unit := do
  assertWritable
  let source ← vertexRecordId env rel.source
  let target ← vertexRecordId env rel.target
  let relation ← relationRecordId env rel.id
  beginTransaction
  tryCatch (relationTransaction env rel source target relation) fun e => do
    cancelSafely
    throw e

/-- `record_to_relation(row)` -/
def relationFromRow (row : RelationRow) : Except PyErr (Relation F X) :=
  recordToRelation env row.toRelationRecord

def getRelation (relationId : String) : Py GraphStore (Option (Relation F X)) := do
  assertReadable
  let relation ← relationRecordId env relationId
  match ← query (.selectRelation relation) with
  | none => return none
  | some row =>
    assertScopedRow row.scope row.runId (some (row.relationId, relationId))
    return some (← lift (relationFromRow env row))

def removeRelation (relationId : String) : Py GraphStore Unit := do
  assertWritable
  let relation ← relationRecordId env relationId
  query (.deleteRelation relation)

/-- The relations that a filter accepts, as the database returns them. -/
def selectRelations (filter : RelationFilter) (ordered : Bool) :
    Py GraphStore (List (Relation F X)) := do
  let self ← get
  let rows ← query (.selectRelations self.scope self.runId filter ordered)
  lift (rows.mapM (relationFromRow env))

def allRelations : Py GraphStore (List (Relation F X)) := do
  assertReadable
  selectRelations env (.matching none none none) true

/-! ### Query pushdown -/

def objectFilter : Option String → ObjectFilter
  | none => .any
  | some objectType => .ofType objectType

def selectObjects (filter : ObjectFilter) (limit : Option Int) :
    Py GraphStore (List (Object F X)) := do
  let self ← get
  let rows ← query (.selectObjects self.scope self.runId filter true limit)
  lift (rows.mapM (objectFromRow env))

def objectExists (objectType : Option String) : Py GraphStore Bool := do
  let self ← get
  let rows ←
    query (.selectObjects self.scope self.runId (objectFilter objectType) false (some 1))
  return !rows.isEmpty

def queryObjects (plan : ObjectQuery F X) : Py GraphStore (ObjectQueryResult F X) := do
  assertReadable
  let residual := plan.where_.getD []
  if plan.resultMode = "exists" ∧ residual.isEmpty then
    return ⟨[], [], some (← objectExists plan.type)⟩
  else
    let limit := if residual.isEmpty then plan.limit else none
    return ⟨← selectObjects env (objectFilter plan.type) limit, residual, none⟩

def findObjects (objectType : Option String) : Py GraphStore (List (Object F X)) := do
  assertReadable
  selectObjects env (objectFilter objectType) none

def findObjectsInTypes (types : List String) : Py GraphStore (List (Object F X)) := do
  match types with
  | [] => return []
  | _ :: _ =>
    assertReadable
    selectObjects env (.inTypes types.eraseDups) none

def findRelations (source target relationType : Option String) :
    Py GraphStore (List (Relation F X)) := do
  assertReadable
  selectRelations env (.matching source target relationType) true

def objectsByLogicalIds (objectIds : List String) : Py GraphStore (List (Object F X)) := do
  match objectIds with
  | [] => return []
  | _ :: _ => selectObjects env (.withIds (objectIds.insertionSort (· ≤ ·))) none

def relationsByLogicalIds (relationIds : List String) : Py GraphStore (List (Relation F X)) := do
  match relationIds with
  | [] => return []
  | _ :: _ => selectRelations env (.withIds (relationIds.insertionSort (· ≤ ·))) false

/-- The sets of a walk: the endpoints and relations seen, and the endpoints seen last. -/
structure Walk where
  seenObjs : List String
  frontier : List String
  seenRels : List String
  deriving DecidableEq

/-- The endpoints of a row that the snapshot does not have, added to the next frontier. -/
def Walk.visit (snapshot nextFrontier : List String) (row : RelationRow) : List String :=
  [row.source, row.target].foldl (fun next endpoint =>
    if endpoint ∈ snapshot then next else next.insert endpoint) nextFrontier

/-- One level of the walk from the relations at its frontier. -/
def Walk.level (w : Walk) (rows : List RelationRow) : Walk :=
  let next := rows.foldl (Walk.visit w.seenObjs) []
  { seenObjs := w.seenObjs.union next
    frontier := next
    seenRels := rows.foldl (fun rels row => rels.insert row.relationId) w.seenRels }

def walk : Nat → Walk → Py GraphStore Walk
  | 0, w => pure w
  | depth + 1, w => do
    if w.frontier = [] then return w
    else
      let self ← get
      let rows ← query (.selectRelations self.scope self.runId
        (.touching (w.frontier.insertionSort (· ≤ ·))) true)
      walk depth (w.level rows)

def neighborhood (objectId : String) (depth : Int) :
    Py GraphStore (List (Object F X) × List (Relation F X)) := do
  assertReadable
  match ← getObject env objectId with
  | none => return ([], [])
  | some _ =>
    let w ← walk depth.toNat ⟨[objectId], [objectId], []⟩
    return (← objectsByLogicalIds env w.seenObjs, ← relationsByLogicalIds env w.seenRels)

/-! ### Patches -/

def patchContent (self : GraphStore) (record : PatchRecord) : PatchRow where
  toPatchRecord := record
  scope := self.scope
  runId := self.runId

def putPatch (patch : Patch F X) : Py GraphStore Unit := do
  assertWritable
  let self ← get
  let record ← patchRecordId env patch.id
  let content ← lift (patchToRecord env patch)
  query (.upsertPatch record (self.patchContent content))

def getPatch (patchId : String) : Py GraphStore (Option (Patch F X)) := do
  assertReadable
  let record ← patchRecordId env patchId
  match ← query (.selectPatch record) with
  | none => return none
  | some row =>
    assertScopedRow row.scope row.runId (some (row.patchId, patchId))
    return some (← lift (patchFromRecord env row.toPatchRecord))

def allPatches : Py GraphStore (List (Patch F X)) := do
  assertReadable
  let self ← get
  let rows ← query (.selectPatches self.scope self.runId)
  lift (rows.mapM fun row => patchFromRecord env row.toPatchRecord)

def removePatch (patchId : String) : Py GraphStore Unit := do
  assertWritable
  let record ← patchRecordId env patchId
  query (.deletePatch record)

/-! ### Projection lifecycle -/

def setProjectionStatus (status : String) (error : Option String) : Py GraphStore Unit := do
  let self ← get
  query (.upsertProjection self.projectionRecord ⟨self.scope, self.runId, status, error⟩)

/-- Relation records must be removed before their endpoint vertices. -/
def clear : Py GraphStore Unit := do
  let self ← get
  ensureOpen
  query (.deleteRelations self.scope self.runId)
  query (.deletePatches self.scope self.runId)
  query (.deleteVertices self.scope self.runId)

def beginRebuild : Py GraphStore Unit := do
  ensureOpen
  setProjectionStatus "rebuilding" none
  modify fun self => { self with rebuildingHere := true }
  clear

def markReady : Py GraphStore Unit := do
  ensureOpen
  setProjectionStatus "ready" none
  modify fun self => { self with rebuildingHere := false }

/-- A diagnostic class or name, never an exception string. -/
def failureDetail : Option (PyErr ⊕ String) → String
  | none => "projection rebuild failed"
  | some (.inl e) => e.cls.name
  | some (.inr text) => text

def markFailed (error : Option (PyErr ⊕ String)) : Py GraphStore Unit := do
  ensureOpen
  setProjectionStatus "failed" (some (failureDetail error))
  modify fun self => { self with rebuildingHere := false }

def close : Py GraphStore Unit := modify fun self => { self with closed := true }

/-! ### Construction -/

def ensureProjectionRecord : Py GraphStore Unit := do
  let self ← get
  match ← projectionRow with
  | some _ => pure ()
  | none =>
    tryCatch (query (.createProjection self.projectionRecord
        ⟨self.scope, self.runId, "ready", none⟩)) fun e => do
      let row ← projectionRow
      lift (raiseIf row.isNone e)

/-- The object before its constructor has run. -/
def blank : GraphStore := ⟨"", "", false, false, ⟨""⟩⟩

def construct (runId scope : String) : Py GraphStore Unit := do
  lift (raiseIf (runId = "") ⟨.valueError, "run_id must be non-empty"⟩)
  lift (raiseIf (scope = "") ⟨.valueError, "scope must be non-empty"⟩)
  modify fun self => { self with scope, runId, closed := false, rebuildingHere := false }
  query .connect
  tryCatch
    (do
      let _ ← ensureSchema schemaVersion false
      let projectionRecord ← lift (recordId env.sha256 .agProjection [scope, runId])
      modify fun self => { self with projectionRecord }
      ensureProjectionRecord)
    fun e => do
      modify fun self => { self with closed := true }
      throw e

/-- `SurrealGraphStore(config, run_id=run_id, scope=scope)` -/
def new {ℓ : Type} (runId scope : String) : Py ℓ GraphStore := fun l =>
  (construct env runId scope blank).bind fun
    | (.ok (), self) => .done (.ok self, l)
    | (.error e, _) => .done (.error e, l)

end GraphStore

end ActiveGraphSurreal
