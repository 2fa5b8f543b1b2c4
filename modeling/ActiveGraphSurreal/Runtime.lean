import ActiveGraphSurreal.EventStore
import ActiveGraphSurreal.GraphStore

/-!
# Replay

`replay_graph` over one event store and one graph store. The graph of the framework is
taken from outside: what it does to a graph store is a tree of calls of the store's methods.
-/

namespace ActiveGraphSurreal

open Library

variable {F X : Type} [Json.ScalarText F]

/-- The methods of a graph store that a graph can call. -/
inductive GraphCall (F X : Type) where
  | putObject (obj : Object F X)
  | getObject (objectId : String)
  | removeObject (objectId : String)
  | allObjects
  | putRelation (rel : Relation F X)
  | getRelation (relationId : String)
  | removeRelation (relationId : String)
  | allRelations
  | queryObjects (plan : ObjectQuery F X)
  | findObjects (objectType : Option String)
  | findObjectsInTypes (types : List String)
  | findRelations (source target relationType : Option String)
  | neighborhood (objectId : String) (depth : Int)
  | putPatch (patch : Patch F X)
  | getPatch (patchId : String)
  | allPatches
  | removePatch (patchId : String)
  | clear

abbrev GraphCall.Value : GraphCall F X → Type
  | getObject _ => Option (Object F X)
  | allObjects | findObjects _ | findObjectsInTypes _ => List (Object F X)
  | getRelation _ => Option (Relation F X)
  | allRelations | findRelations .. => List (Relation F X)
  | queryObjects _ => ObjectQueryResult F X
  | neighborhood .. => List (Object F X) × List (Relation F X)
  | getPatch _ => Option (Patch F X)
  | allPatches => List (Patch F X)
  | _ => Unit

abbrev GraphAnswer (c : GraphCall F X) : Type := Except PyErr c.Value

/-- Code that works on a graph store through its methods. -/
abbrev GraphProg (F X α : Type) := Prog (GraphCall F X) GraphAnswer α

/-- `activegraph.core.graph.Graph`. -/
structure Framework (F X : Type) where
  Graph : Type
  new : String → GraphProg F X (Except PyErr Graph)
  replayEvent : Graph → Event F X → GraphProg F X (Except PyErr Graph)
  reseed : Graph → List (Event F X) → Except PyErr Graph

variable (env : Env F X)

def GraphCall.code : (c : GraphCall F X) → Py GraphStore c.Value
  | putObject obj => GraphStore.putObject env obj
  | getObject objectId => GraphStore.getObject env objectId
  | removeObject objectId => GraphStore.removeObject env objectId
  | allObjects => GraphStore.allObjects env
  | putRelation rel => GraphStore.putRelation env rel
  | getRelation relationId => GraphStore.getRelation env relationId
  | removeRelation relationId => GraphStore.removeRelation env relationId
  | allRelations => GraphStore.allRelations env
  | queryObjects plan => GraphStore.queryObjects env plan
  | findObjects objectType => GraphStore.findObjects env objectType
  | findObjectsInTypes types => GraphStore.findObjectsInTypes env types
  | findRelations source target relationType =>
    GraphStore.findRelations env source target relationType
  | neighborhood objectId depth => GraphStore.neighborhood env objectId depth
  | putPatch patch => GraphStore.putPatch env patch
  | getPatch patchId => GraphStore.getPatch env patchId
  | allPatches => GraphStore.allPatches env
  | removePatch patchId => GraphStore.removePatch env patchId
  | clear => GraphStore.clear

/-- The two stores of a replay. -/
structure Stores where
  events : EventStore
  graph : GraphStore
  deriving DecidableEq

def onEvents {α : Type} (m : Py EventStore α) : Py Stores α := fun stores =>
  (m stores.events).bind fun x => .done (x.1, { stores with events := x.2 })

def onGraph {α : Type} (m : Py GraphStore α) : Py Stores α := fun stores =>
  (m stores.graph).bind fun x => .done (x.1, { stores with graph := x.2 })

/-- A graph at work on its store. -/
def interpret {α : Type} : GraphProg F X (Except PyErr α) → Py Stores α
  | .done (.ok a) => pure a
  | .done (.error e) => throw e
  | .call c k => Method.tryElse (onGraph (c.code env))
    (fun e => interpret (k (.error e))) fun a => interpret (k (.ok a))

def replayEvents (lib : Framework F X) : lib.Graph → List (Event F X) → Py Stores lib.Graph
  | graph, [] => pure graph
  | graph, event :: events => do
    let graph ← interpret env (lib.replayEvent graph event)
    replayEvents lib graph events

/-- The `try` block of `replay_graph`. -/
def rebuild (lib : Framework F X) : Py Stores lib.Graph := do
  let stores ← get
  onGraph GraphStore.beginRebuild
  let events ← onEvents (EventStore.iterEvents env none none)
  lift (raiseIf (events.head?.any fun event => event.type = "runtime.snapshot")
    ⟨.unsupportedCompactedRunError,
      "runtime.snapshot replay is outside the uncompacted preview contract"⟩)
  let graph ← interpret env (lib.new stores.events.runId)
  let graph ← replayEvents env lib graph events
  let graph ← lift (lib.reseed graph events)
  onGraph GraphStore.markReady
  return graph

def replayGraph (lib : Framework F X) : Py Stores lib.Graph := do
  let stores ← get
  lift (raiseIf (stores.events.runId ≠ stores.graph.runId)
    ⟨.valueError, "event and projection run_id values must match"⟩)
  lift (raiseIf (stores.events.scope ≠ stores.graph.scope)
    ⟨.valueError, "event and projection scope values must match"⟩)
  tryCatch (rebuild env lib) fun exc => do
    -- the failure of the replay is kept when the status cannot be written
    tryCatch (onGraph (GraphStore.markFailed (some (.inl exc)))) fun _ => pure ()
    throw exc

end ActiveGraphSurreal
