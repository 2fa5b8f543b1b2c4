import ActiveGraphSurreal.Keys
import ActiveGraphSurreal.Library.JsonRoundTrip

/-!
# Canonical serialization

`F` are the floating-point numbers and `X` the values that only the encoder of ActiveGraph
knows how to turn into JSON.
-/

namespace ActiveGraphSurreal

open Library

abbrev PyValue (F X : Type) := Json (F ⊕ X)

variable {F X : Type}

/-- What the provider takes from outside: SHA-256 as a hexadecimal digest,
`activegraph.store.serde.encode_payload`, `str.isprintable` and the messages of the JSON
reader. -/
structure Env (F X : Type) where
  sha256 : List UInt8 → String
  encodePayload : PyValue F X → Except PyErr String
  isPrintable : Char → Bool
  decodeError : String → String

def Env.repr (env : Env F X) (s : String) : String := pyRepr env.isPrintable s

/-- A value that is JSON already. -/
def plain (j : Json F) : PyValue F X := j.map Sum.inl

variable [Json.ScalarText F] (env : Env F X)

/-- `json.loads(text)` -/
def loads (text : String) : Except PyErr (Json F) :=
  match Json.parse text.toList with
  | some j => .ok j
  | none => .error ⟨.jsonDecodeError, env.decodeError text⟩

/-- `json.dumps(adapted, ensure_ascii=False, separators=(",", ":"), sort_keys=True)` -/
def dumps (adapted : Json F) : String := String.ofList (Json.render adapted.canon)

def canonicalJson (value : PyValue F X) : Except PyErr String := do
  let adapted ← loads env (← env.encodePayload value)
  return dumps adapted

/-! ### Events -/

structure Event (F X : Type) where
  id : String
  type : String
  payload : PyValue F X
  actor : Option String
  frameId : Option String
  causedBy : Option String
  timestamp : String

/-- The detached row of an event. -/
structure EventRecord where
  eventId : String
  eventType : String
  payloadJson : String
  actor : Option String
  frameId : Option String
  causedBy : Option String
  timestamp : String
  deriving DecidableEq, Repr

def eventToRecord (event : Event F X) : Except PyErr EventRecord := do
  return {
    eventId := event.id
    eventType := event.type
    payloadJson := ← canonicalJson env event.payload
    actor := event.actor
    frameId := event.frameId
    causedBy := event.causedBy
    timestamp := event.timestamp }

def recordToEvent (record : EventRecord) : Except PyErr (Event F X) := do
  return {
    id := record.eventId
    type := record.eventType
    payload := plain (← loads env record.payloadJson)
    actor := record.actor
    frameId := record.frameId
    causedBy := record.causedBy
    timestamp := record.timestamp }

def optionalText : Option String → PyValue F X
  | none => .null
  | some s => .str s

/-- The dictionary under the hash of an event. -/
def preimage (scope runId : String) (seq : Int) (event : Event F X)
    (previousHash : Option String) : PyValue F X :=
  .obj [
    ("scope", .str scope),
    ("run_id", .str runId),
    ("seq", .int seq),
    ("id", .str event.id),
    ("type", .str event.type),
    ("payload", event.payload),
    ("actor", optionalText event.actor),
    ("frame_id", optionalText event.frameId),
    ("caused_by", optionalText event.causedBy),
    ("timestamp", .str event.timestamp),
    ("previous_hash", optionalText previousHash)]

def eventHash (scope runId : String) (seq : Int) (event : Event F X)
    (previousHash : Option String) : Except PyErr String := do
  return env.sha256 (utf8 (← canonicalJson env (preimage scope runId seq event previousHash)))

/-! ### Objects, relations and patches -/

structure Object (F X : Type) where
  id : String
  type : String
  data : PyValue F X
  version : Int
  provenance : PyValue F X

structure Relation (F X : Type) where
  id : String
  source : String
  target : String
  type : String
  data : PyValue F X
  provenance : PyValue F X

structure Patch (F X : Type) where
  id : String
  target : String
  op : String
  value : PyValue F X
  expectedVersion : Int
  proposedBy : String
  rationale : Option String
  evidence : List (PyValue F X)
  status : String
  rejectionReason : Option String
  provenance : PyValue F X

structure ObjectRecord where
  objectId : String
  objectType : String
  dataJson : String
  version : Int
  provenanceJson : String
  deriving DecidableEq, Repr

structure RelationRecord where
  relationId : String
  source : String
  target : String
  relationType : String
  dataJson : String
  provenanceJson : String
  deriving DecidableEq, Repr

structure PatchRecord where
  patchId : String
  target : String
  op : String
  valueJson : String
  expectedVersion : Int
  proposedBy : String
  rationale : Option String
  evidenceJson : String
  status : String
  rejectionReason : Option String
  provenanceJson : String
  deriving DecidableEq, Repr

def objectToRecord (obj : Object F X) : Except PyErr ObjectRecord := do
  return {
    objectId := obj.id
    objectType := obj.type
    dataJson := ← canonicalJson env obj.data
    version := obj.version
    provenanceJson := ← canonicalJson env obj.provenance }

def objectFromRecord (record : ObjectRecord) : Except PyErr (Object F X) := do
  return {
    id := record.objectId
    type := record.objectType
    data := plain (← loads env record.dataJson)
    version := record.version
    provenance := plain (← loads env record.provenanceJson) }

def relationToRecord (relation : Relation F X) : Except PyErr RelationRecord := do
  return {
    relationId := relation.id
    source := relation.source
    target := relation.target
    relationType := relation.type
    dataJson := ← canonicalJson env relation.data
    provenanceJson := ← canonicalJson env relation.provenance }

def recordToRelation (record : RelationRecord) : Except PyErr (Relation F X) := do
  return {
    id := record.relationId
    source := record.source
    target := record.target
    type := record.relationType
    data := plain (← loads env record.dataJson)
    provenance := plain (← loads env record.provenanceJson) }

def patchToRecord (patch : Patch F X) : Except PyErr PatchRecord := do
  return {
    patchId := patch.id
    target := patch.target
    op := patch.op
    valueJson := ← canonicalJson env patch.value
    expectedVersion := patch.expectedVersion
    proposedBy := patch.proposedBy
    rationale := patch.rationale
    evidenceJson := ← canonicalJson env (.arr patch.evidence)
    status := patch.status
    rejectionReason := patch.rejectionReason
    provenanceJson := ← canonicalJson env patch.provenance }

/-- `list(value)` of a parsed value: the items, the keys or the characters. -/
def pyList : Json F → Except PyErr (List (Json F))
  | .arr items => .ok items
  | .obj members => .ok (members.map fun m => .str m.1)
  | .str s => .ok (s.toList.map fun c => .str (String.singleton c))
  | .null => .error ⟨.typeError, "'NoneType' object is not iterable"⟩
  | .bool _ => .error ⟨.typeError, "'bool' object is not iterable"⟩
  | .int _ => .error ⟨.typeError, "'int' object is not iterable"⟩
  | .scalar _ => .error ⟨.typeError, "'float' object is not iterable"⟩

def patchFromRecord (record : PatchRecord) : Except PyErr (Patch F X) := do
  return {
    id := record.patchId
    target := record.target
    op := record.op
    value := plain (← loads env record.valueJson)
    expectedVersion := record.expectedVersion
    proposedBy := record.proposedBy
    rationale := record.rationale
    evidence := (← pyList (← loads env record.evidenceJson)).map plain
    status := record.status
    rejectionReason := record.rejectionReason
    provenance := plain (← loads env record.provenanceJson) }

end ActiveGraphSurreal
