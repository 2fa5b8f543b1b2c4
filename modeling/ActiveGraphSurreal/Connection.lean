import ActiveGraphSurreal.Database

/-!
# The schema lifecycle of a connection
-/

namespace ActiveGraphSurreal

open Library

def schemaVersion : Int := 3

def minSchemaVersion : Int := 1

/-- The statements of `schema.surql`. -/
def schemaStatements : List Ddl := [
  .table .agSchema,
  .field .agSchema "version" "int",
  .field .agSchema "installed_at" "string",
  .table .agRun,
  .field .agRun "scope" "string",
  .field .agRun "run_id" "string",
  .field .agRun "parent_run_id" "option<string>",
  .field .agRun "forked_at_event_id" "option<string>",
  .field .agRun "label" "option<string>",
  .field .agRun "created_at" "string",
  .field .agRun "goal" "option<string>",
  .field .agRun "frame_id" "option<string>",
  .field .agRun "next_seq" "int",
  .field .agRun "head_hash" "option<string>",
  .index .agRun "ag_run_scope_run" ["scope", "run_id"] true,
  .table .agEvent,
  .field .agEvent "scope" "string",
  .field .agEvent "run_id" "string",
  .field .agEvent "event_id" "string",
  .field .agEvent "seq" "int",
  .field .agEvent "event_type" "string",
  .field .agEvent "payload_json" "string",
  .field .agEvent "actor" "option<string>",
  .field .agEvent "frame_id" "option<string>",
  .field .agEvent "caused_by" "option<string>",
  .field .agEvent "timestamp" "string",
  .field .agEvent "previous_hash" "option<string>",
  .field .agEvent "hash" "string",
  .index .agEvent "ag_event_scope_run_id" ["scope", "run_id", "event_id"] true,
  .index .agEvent "ag_event_scope_run_seq" ["scope", "run_id", "seq"] true,
  .table .agProjection,
  .field .agProjection "scope" "string",
  .field .agProjection "run_id" "string",
  .field .agProjection "status" "string",
  .field .agProjection "error" "option<string>",
  .field .agProjection "updated_at" "string",
  .index .agProjection "ag_projection_scope_run" ["scope", "run_id"] true,
  .table .agVertex,
  .field .agVertex "scope" "string",
  .field .agVertex "run_id" "string",
  .field .agVertex "object_id" "string",
  .field .agVertex "object_present" "bool",
  .field .agVertex "object_type" "option<string>",
  .field .agVertex "data_json" "option<string>",
  .field .agVertex "version" "option<int>",
  .field .agVertex "provenance_json" "option<string>",
  .index .agVertex "ag_vertex_scope_run_id" ["scope", "run_id", "object_id"] true,
  .index .agVertex "ag_vertex_scope_run_present" ["scope", "run_id", "object_present"] false,
  .index .agVertex "ag_vertex_scope_run_type" ["scope", "run_id", "object_type"] false,
  .field .agVertex "object_seq" "int DEFAULT 0",
  .index .agVertex "ag_vertex_scope_run_seq" ["scope", "run_id", "object_seq"] false,
  .table .agRelation,
  .field .agRelation "scope" "string",
  .field .agRelation "run_id" "string",
  .field .agRelation "relation_id" "string",
  .field .agRelation "source" "string",
  .field .agRelation "target" "string",
  .field .agRelation "relation_type" "string",
  .field .agRelation "data_json" "string",
  .field .agRelation "provenance_json" "string",
  .index .agRelation "ag_relation_scope_run_id" ["scope", "run_id", "relation_id"] true,
  .index .agRelation "ag_relation_scope_run_source" ["scope", "run_id", "source"] false,
  .index .agRelation "ag_relation_scope_run_target" ["scope", "run_id", "target"] false,
  .index .agRelation "ag_relation_scope_run_type" ["scope", "run_id", "relation_type"] false,
  .table .agPatch,
  .field .agPatch "scope" "string",
  .field .agPatch "run_id" "string",
  .field .agPatch "patch_id" "string",
  .field .agPatch "target" "string",
  .field .agPatch "op" "string",
  .field .agPatch "value_json" "string",
  .field .agPatch "expected_version" "int",
  .field .agPatch "proposed_by" "string",
  .field .agPatch "rationale" "option<string>",
  .field .agPatch "evidence_json" "string",
  .field .agPatch "status" "string",
  .field .agPatch "rejection_reason" "option<string>",
  .field .agPatch "provenance_json" "string",
  .index .agPatch "ag_patch_scope_run_id" ["scope", "run_id", "patch_id"] true]

variable {ℓ : Type}

def assertSchemaVersion (supported : Int) (row : SchemaRow) : Except PyErr Unit := do
  raiseIf (supported < row.version) ⟨.ledgerIntegrityError, "provider schema version " ++
    toString row.version ++ " is newer than this provider supports (maximum " ++
    toString supported ++ ")"⟩
  raiseIf (row.version < minSchemaVersion) ⟨.ledgerIntegrityError, "provider schema version " ++
    toString row.version ++ " predates the supported minimum " ++ toString minSchemaVersion⟩

def defineAll : List Ddl → Py ℓ Unit
  | [] => pure ()
  | statement :: statements => do
    query (.define statement)
    defineAll statements

/-- A table that is not defined yet is the case of a clean installation. -/
def selectExistingSchema : Py ℓ (Option SchemaRow) :=
  tryCatch (query .selectSchema) fun e =>
    if e.cls = .notFoundError then pure none else throw e

/-- Writes the schema record unless a concurrently constructed store has won creation. -/
def createSchemaRecord (supported : Int) : Py ℓ (Option SchemaRow) :=
  Method.tryElse
    (do
      let installedAt ← query .timeNow
      query (.createSchema ⟨supported, installedAt⟩))
    (fun e => do
      let current ← query .selectSchema
      lift (raiseIf current.isNone e)
      return current)
    (fun _ => query .selectSchema)

def missingSchema : PyErr := ⟨.ledgerIntegrityError, "the provider schema record is missing"⟩

/-- The schema record after the definitions, written if it was absent. -/
def installedSchema (supported : Int) : Py ℓ (Option SchemaRow) := do
  match ← query .selectSchema with
  | some current => return some current
  | none => createSchemaRecord supported

/-- Records a higher version only after the definitions have succeeded. -/
def upgradeSchema (supported : Int) (current : SchemaRow) : Py ℓ Int := do
  lift (assertSchemaVersion supported current)
  if current.version < supported then
    query (.updateSchemaVersion supported)
    return supported
  else
    return supported

def installSchema (supported : Int) : Py ℓ Int := do
  match ← selectExistingSchema with
  | some existing => lift (assertSchemaVersion supported existing)
  | none => pure ()
  defineAll schemaStatements
  match ← installedSchema supported with
  | none => throw missingSchema
  | some current => upgradeSchema supported current

/-- `ensure_schema` of a provider whose `SCHEMA_VERSION` is `supported`. -/
def ensureSchema (supported : Int) (schemaReady : Bool) : Py ℓ Int :=
  if schemaReady then return supported else installSchema supported

end ActiveGraphSurreal
