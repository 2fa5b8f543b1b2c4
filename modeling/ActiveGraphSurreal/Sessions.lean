import ActiveGraphSurreal.Config
import ActiveGraphSurreal.EventStore
import ActiveGraphSurreal.GraphStore

/-!
# Connections and their owners

A store owns a connection: a WebSocket with one session, on which it makes its statements. This
is the layer of the sockets, with everything that opens and closes them. Its statements are the
calls of the stores.
-/

namespace ActiveGraphSurreal

open Library

/-- The calls of the SDK, by the socket that they are made on. -/
inductive SocketCall where
  /-- `Surreal(endpoint)` -/
  | connect
  | signin (socket : Nat)
  | use (socket : Nat)
  | newSession (socket : Nat)
  | signinSession (socket : Nat)
  | useSession (socket : Nat)
  | session (socket : Nat) (call : Call)
  | version (socket : Nat)
  | closeSession (socket : Nat)
  | close (socket : Nat)

/-- A new connection is a socket, and whether it is the blocking WebSocket one. -/
abbrev SocketAnswer : SocketCall → Type
  | .connect => Except PyErr (Nat × Bool)
  | .session _ call => Answer call
  | .version _ => Except PyErr String
  | _ => Except PyErr Unit

abbrev Soc (ℓ α : Type) := Method SocketCall SocketAnswer PyErr ℓ α

section

variable {ℓ α : Type}

def ask (c : SocketCall) (answer : SocketAnswer c → Except PyErr α) : Soc ℓ α := fun l =>
  .call c fun r => .done (answer r, l)

/-- `try` with a `finally`. -/
def tryFinally (m : Soc ℓ α) (cleanup : Soc ℓ Unit) : Soc ℓ α :=
  Method.tryElse m (fun exc => do cleanup; throw exc) fun a => do cleanup; return a

/-- A block whose cleanup is detached when it returns. -/
def onFailure (m : Soc ℓ α) (cleanup : Soc ℓ Unit) : Soc ℓ α :=
  Method.tryElse m (fun exc => do cleanup; throw exc) pure

/-- The calls of a store on the session of its connection. -/
def onSession (socket : Nat) : Prog Call Answer α → Prog SocketCall SocketAnswer α
  | .done a => .done a
  | .call c k => .call (.session socket c) fun r => onSession socket (k r)

/-- A method of another object, from its state `s`. -/
def statements {S : Type} (socket : Nat) (m : Py S α) (s : S) : Soc ℓ (α × S) := fun l =>
  (onSession socket (m s)).bind fun x => .done (x.1.map fun a => (a, x.2), l)

end

/-! ### Connections -/

/-- `SurrealConnection` -/
structure Connection where
  socket : Nat
  session : Bool
  closed : Bool

namespace Connection

/-- `SurrealConnection(config)` -/
def new {ℓ : Type} : Soc ℓ Connection := do
  let (socket, blocking) ← ask .connect id
  if blocking then
    onFailure (do
      ask (.signin socket) id
      ask (.use socket) id
      ask (.newSession socket) id
      ask (.signinSession socket) id
      ask (.useSession socket) id
      return ⟨socket, true, false⟩) (ask (.close socket) id)
  else
    ask (.close socket) id
    throw (configurationError "the provider requires the SurrealDB blocking WebSocket transport")

def close : Soc Connection Unit := do
  let self ← get
  if self.closed then return ()
  set { self with closed := true, session := false }
  tryFinally (if self.session then ask (.closeSession self.socket) id else pure ())
    (ask (.close self.socket) id)

end Connection

/-- A connection that nobody uses after it is closed. -/
def closing {ℓ : Type} (connection : Connection) : Soc ℓ Unit := fun l =>
  (Connection.close connection).bind fun x => .done (x.1, l)

/-! ### Stores -/

/-- A store with its connection. -/
structure Connected (S : Type) where
  store : S
  connection : Connection

/-- `close` of a store, whose flag `closed` reads and `shut` sets. -/
def disconnect {S : Type} (closed : S → Bool) (shut : S → S) : Soc (Connected S) Unit := fun self =>
  if closed self.store then .done (.ok (), self)
  else
    (Connection.close self.connection).bind fun x => .done (x.1, ⟨shut self.store, x.2⟩)

variable {F X : Type} [Json.ScalarText F] (env : Env F X)

namespace EventStore

/-- The part of the constructor behind the connection. -/
def prepare (runId scope now : String) : Py EventStore Unit := do
  let _ ← ensureSchema schemaVersion false
  let runRecord ← lift (recordId env.sha256 .agRun [scope, runId])
  modify fun self => { self with runRecord }
  ensureRun now
  let report ← verifyIntegrity env
  modify fun self => { self with
    expectedNextSeq := report.nextSeq
    expectedHeadHash := report.headHash }

/-- `SurrealEventStore(config, run_id=run_id, scope=scope)` -/
def connect {ℓ : Type} (runId scope now : String) : Soc ℓ (Connected EventStore) := do
  Method.lift (raiseIf (runId = "") ⟨.valueError, "run_id must be non-empty"⟩)
  Method.lift (raiseIf (scope = "") ⟨.valueError, "scope must be non-empty"⟩)
  let connection ← Connection.new
  onFailure (do
    let (_, store) ← statements connection.socket (prepare env runId scope now)
      { blank with scope, runId, closed := false }
    return ⟨store, connection⟩) (closing connection)

def disconnect : Soc (Connected EventStore) Unit :=
  ActiveGraphSurreal.disconnect (·.closed) fun self => { self with closed := true }

def runExists {ℓ : Type} (runId scope : String) : Soc ℓ Bool := do
  let connection ← Connection.new
  tryFinally (do
    let (found, _) ← statements connection.socket (do
      let _ ← ensureSchema schemaVersion false
      let record ← lift (recordId env.sha256 .agRun [scope, runId])
      return (← query (.selectRun record)).isSome) ()
    return found) (closing connection)

end EventStore

namespace GraphStore

/-- The part of the constructor behind the connection. -/
def prepare (runId scope : String) : Py GraphStore Unit := do
  let _ ← ensureSchema schemaVersion false
  let projectionRecord ← lift (recordId env.sha256 .agProjection [scope, runId])
  modify fun self => { self with projectionRecord }
  ensureProjectionRecord

/-- `SurrealGraphStore(config, run_id=run_id, scope=scope)` -/
def connect {ℓ : Type} (runId scope : String) : Soc ℓ (Connected GraphStore) := do
  Method.lift (raiseIf (runId = "") ⟨.valueError, "run_id must be non-empty"⟩)
  Method.lift (raiseIf (scope = "") ⟨.valueError, "scope must be non-empty"⟩)
  let connection ← Connection.new
  onFailure (do
    let (_, store) ← statements connection.socket (prepare env runId scope)
      { blank with scope, runId, closed := false, rebuildingHere := false }
    return ⟨store, connection⟩) (closing connection)

def disconnect : Soc (Connected GraphStore) Unit :=
  ActiveGraphSurreal.disconnect (·.closed) fun self => { self with closed := true }

end GraphStore

/-! ### Waiting for a server -/

/-- What one attempt finds: the version of the server, or that it cannot be asked. -/
def reachable {ℓ : Type} : Soc ℓ Bool :=
  Method.tryElse Connection.new (fun _ => return false) fun connection =>
    tryFinally (Method.tryElse (ask (.version connection.socket) id) (fun _ => return false)
      fun _ => return true) (closing connection)

/-- `wait_until_ready`, where the deadline comes after `attempts` attempts. -/
def waitUntilReady {ℓ : Type} : Nat → Soc ℓ Unit
  | 0 => throw ⟨.other "TimeoutError", "SurrealDB did not become ready before the deadline"⟩
  | attempts + 1 => do
    if ← reachable then return ()
    waitUntilReady attempts

def waitUntilUnavailable {ℓ : Type} : Nat → Soc ℓ Unit
  | 0 => throw ⟨.other "TimeoutError", "SurrealDB remained available past the deadline"⟩
  | attempts + 1 => do
    if ← reachable then waitUntilUnavailable attempts

/-! ### The runtime of a pack -/

/-- The calls of code that works with both stores. -/
abbrev BothCall := Bool × Call

abbrev BothAnswer (c : BothCall) : Type := Answer c.2

/-- Which store makes the call: the event store or the graph store. -/
def onSessions {α : Type} (events graph : Nat) :
    Prog BothCall BothAnswer α → Prog SocketCall SocketAnswer α
  | .done a => .done a
  | .call (true, c) k => .call (.session events c) fun r => onSessions events graph (k r)
  | .call (false, c) k => .call (.session graph c) fun r => onSessions events graph (k r)

namespace Harness

/-- `SurrealPackRuntime` -/
structure PackRuntime where
  events : Connected EventStore
  graph : Connected GraphStore
  loadedPacks : List String

/-- The framework's runtime and the packs that it loads. They leave the stores in other
states. -/
abbrev Loader := EventStore → GraphStore →
  Prog BothCall BothAnswer (Except PyErr (EventStore × GraphStore × List String))

def PackRuntime.close : Soc PackRuntime Unit :=
  tryFinally
    (fun self => (EventStore.disconnect self.events).bind fun x =>
      .done (x.1, { self with events := x.2 }))
    fun self => (GraphStore.disconnect self.graph).bind fun x =>
      .done (x.1, { self with graph := x.2 })

/-- `close` of a store that has not been handed out. -/
def closeEvents {ℓ : Type} (events : Connected EventStore) : Soc ℓ Unit := fun l =>
  (EventStore.disconnect events).bind fun x => .done (x.1, l)

def closeGraph {ℓ : Type} (graph : Connected GraphStore) : Soc ℓ Unit := fun l =>
  (GraphStore.disconnect graph).bind fun x => .done (x.1, l)

def buildRuntime {ℓ : Type} (runId scope now : String) (load : Loader) : Soc ℓ PackRuntime := do
  let events ← EventStore.connect env runId scope now
  onFailure (do
    let graph ← GraphStore.connect env runId scope
    onFailure (do
      let (eventStore, graphStore, loadedPacks) ← fun l =>
        (onSessions events.connection.socket graph.connection.socket
          (load events.store graph.store)).bind fun r => .done (r, l)
      return ⟨⟨eventStore, events.connection⟩, ⟨graphStore, graph.connection⟩, loadedPacks⟩)
      (closeGraph graph)) (closeEvents events)

end Harness

end ActiveGraphSurreal
