import ActiveGraphSurreal.Proofs.Isolation
import ActiveGraphSurreal.Proofs.ReadOnly

/-!
# The provider at work

The clients of one database, each with an event store, a graph store, or both, and a replay
over the two. Every run keeps the tables sound, and a store of one run is not seen through
the stores of another.
-/

namespace ActiveGraphSurreal

open Library

set_option linter.unusedSectionVars false

variable {F X : Type} [Json.ScalarText F]

/-! ### Operations -/

inductive GraphOp (F X : Type) where
  | open_ (runId scope : String)
  | call (c : GraphCall F X)
  | projectionStatus
  | beginRebuild
  | markReady
  | markFailed (error : Option (PyErr ⊕ String))
  | close

inductive GraphValue (F X : Type) where
  | unit
  | answer (c : GraphCall F X) (value : c.Value)
  | status (s : String)
  | store (s : GraphStore)

abbrev GraphResult (F X : Type) := Except PyErr (GraphValue F X) × Option GraphStore

def onGraphStore {α : Type} (m : Py GraphStore α) (f : α → GraphValue F X) (store : GraphStore) :
    Prog Call Answer (GraphResult F X) :=
  (m store).bind fun x => .done (x.1.map f, some x.2)

def GraphOp.code (env : Env F X) : Option GraphStore → GraphOp F X →
    Prog Call Answer (GraphResult F X)
  | _, open_ runId scope => (GraphStore.new env runId scope ()).bind fun x =>
      .done (x.1.map .store, x.1.toOption)
  | none, _ => .done (.error noStore, none)
  | some store, call c => onGraphStore (c.code env) (.answer c) store
  | some store, projectionStatus => onGraphStore GraphStore.projectionStatus .status store
  | some store, beginRebuild => onGraphStore GraphStore.beginRebuild (fun _ => .unit) store
  | some store, markReady => onGraphStore GraphStore.markReady (fun _ => .unit) store
  | some store, markFailed error =>
      onGraphStore (GraphStore.markFailed error) (fun _ => .unit) store
  | some store, close => onGraphStore GraphStore.close (fun _ => .unit) store

/-- The stores of a client. -/
structure Held where
  events : Option EventStore
  graph : Option GraphStore
  deriving DecidableEq

inductive ProviderOp (F X : Type) where
  | events (op : EventOp F X)
  | graph (op : GraphOp F X)
  | replay

inductive ProviderValue (lib : Framework F X) where
  | events (value : EventValue F X)
  | graph (value : GraphValue F X)
  | replayed (graph : lib.Graph)

abbrev ProviderResult (lib : Framework F X) := Except PyErr (ProviderValue lib) × Held

/-- A constructor that raises leaves its client with the store it had. -/
def ProviderOp.code (env : Env F X) (lib : Framework F X) (held : Held) :
    ProviderOp F X → Prog Call Answer (ProviderResult lib)
  | events op => (op.code env (held.events.map fun store => ⟨store, []⟩)).bind fun x =>
      .done (x.1.map .events, { held with events := x.2 <|> held.events })
  | graph op => (op.code env held.graph).bind fun x =>
      .done (x.1.map .graph, { held with graph := x.2 <|> held.graph })
  | replay =>
    match held with
    | ⟨some eventStore, some graphStore⟩ =>
        (replayGraph env lib ⟨eventStore, graphStore⟩).bind fun x =>
          .done (x.1.map .replayed, ⟨some x.2.events, some x.2.graph⟩)
    | _ => .done (.error noStore, held)

def providerSystem (env : Env F X) (sdk : Sdk) (lib : Framework F X)
    (lostCall lostAnswer : Prop) :
    System Nat Held (ProviderOp F X) Call Answer (ProviderResult lib) Database where
  serve i := (engine sdk).serve (faults lostCall lostAnswer) i
  code := ProviderOp.code env lib
  finish _ _ _ a := a.2

abbrev ProviderConfig (lib : Framework F X) :=
  Config Nat Held (ProviderOp F X) Call Answer (ProviderResult lib) Database

abbrev ProviderLabel (lib : Framework F X) :=
  Label Nat Held (ProviderOp F X) Call Answer (ProviderResult lib) Database

/-- A run of clients without stores from an empty database. -/
def Provides (env : Env F X) (sdk : Sdk) (lib : Framework F X) (lostCall lostAnswer : Prop)
    (tr : List (ProviderLabel lib)) (c : ProviderConfig lib) : Prop :=
  (providerSystem env sdk lib lostCall lostAnswer).Run
    ⟨freshDatabase, fun _ => .idle ⟨none, none⟩⟩ tr c

/-- The operation works on the stores at hand and opens none. -/
def EventOp.OnStore : EventOp F X → Prop
  | open_ .. | forkPrefix .. => False
  | _ => True

def GraphOp.OnStore : GraphOp F X → Prop
  | open_ .. => False
  | _ => True

def ProviderOp.OnStores : ProviderOp F X → Prop
  | events op => op.OnStore
  | graph op => op.OnStore
  | replay => True

variable {env : Env F X} {sdk : Sdk} {lib : Framework F X} {lostCall lostAnswer : Prop}
  {g : String × String} {begun : Bool}

/-- The event store is bound to the one run and the graph store to the other. -/
structure Held.At (env : Env F X) (g g' : String × String) (held : Held) : Prop where
  events : ∀ store, held.events = some store → store.At env g
  graph : ∀ store, held.graph = some store → store.At env g'

def Held.Proper (env : Env F X) (held : Held) : Prop := ∃ g g', held.At env g g'

/-! ### Replays -/

section replays

variable {α : Type} {P : Stmt → Prop} {I : EventStore → Prop} {J : GraphStore → Prop}

/-- What is known of the two stores of a replay. -/
def Stores.Are (I : EventStore → Prop) (J : GraphStore → Prop) (stores : Stores) : Prop :=
  I stores.events ∧ J stores.graph

lemma keepsTo_onEvents {m : Py EventStore α} (hm : KeepsTo P I begun m) :
    KeepsTo P (Stores.Are I J) begun (onEvents m) := by
  intro stores b hstores hb
  apply confined_bind_iff.mpr
  refine (hm stores.events b hstores.1 hb).mono (fun _ => id) ?_
  rintro b' x ⟨hb', hx⟩
  exact ⟨hb', hx, hstores.2⟩

lemma keepsTo_onGraph {m : Py GraphStore α} (hm : KeepsTo P J begun m) :
    KeepsTo P (Stores.Are I J) begun (onGraph m) := by
  intro stores b hstores hb
  apply confined_bind_iff.mpr
  refine (hm stores.graph b hstores.2 hb).mono (fun _ => id) ?_
  rintro b' x ⟨hb', hx⟩
  exact ⟨hb', hstores.1, hx⟩

lemma keepsTo_interpret (hcode : ∀ c : GraphCall F X, KeepsTo P J begun (c.code env))
    (p : GraphProg F X (Except PyErr α)) :
    KeepsTo P (Stores.Are I J) begun (interpret env p) := by
  induction p with
  | done r =>
    cases r with
    | error e => exact keepsTo_throw e
    | ok a => exact keepsTo_pure a
  | call c k ih =>
    unfold interpret
    exact KeepsTo.tryElse (keepsTo_onGraph (hcode c)) (fun e => ih _) fun a => ih _

lemma keepsTo_replayEvents (hcode : ∀ c : GraphCall F X, KeepsTo P J begun (c.code env))
    (graph : lib.Graph) (events : List (Event F X)) :
    KeepsTo P (Stores.Are I J) begun (replayEvents env lib graph events) := by
  induction events generalizing graph with
  | nil => exact keepsTo_pure graph
  | cons event events ih =>
    unfold replayEvents
    exact (keepsTo_interpret hcode _).bind fun graph => ih graph

/-- A replay makes statements of the runs of its two stores. -/
theorem keepsTo_replayGraph {g' : String × String} (hg : ∀ st : Stmt, st.Bound env g → P st)
    (hg' : ∀ st : Stmt, st.Bound env g' → P st) :
    KeepsTo P (Stores.Are (EventStore.At env g) (GraphStore.At env g')) begun
      (replayGraph env lib) := by
  have hcode : ∀ c : GraphCall F X, KeepsTo P (GraphStore.At env g') begun (c.code env) :=
    fun c => (inside_code c).mono fun st hst => hg' st hst.toBound
  have hrebuild : KeepsTo P (Stores.Are (EventStore.At env g) (GraphStore.At env g')) begun
      (rebuild env lib) := by
    unfold rebuild
    refine KeepsTo.get fun stores _ => ?_
    refine (keepsTo_onGraph (GraphStore.bound_beginRebuild.mono hg')).bind fun _ => ?_
    refine (keepsTo_onEvents ((EventStore.bound_iterEvents _ _).mono hg)).bind fun events => ?_
    refine (keepsTo_lift _).bind fun _ => (keepsTo_interpret hcode _).bind fun graph => ?_
    refine (keepsTo_replayEvents hcode graph events).bind fun graph => ?_
    refine (keepsTo_lift _).bind fun graph => ?_
    refine (keepsTo_onGraph (GraphStore.bound_markReady.mono hg')).bind fun _ => ?_
    exact keepsTo_pure graph
  unfold replayGraph
  refine KeepsTo.get fun stores _ => (keepsTo_lift _).bind fun _ => (keepsTo_lift _).bind fun _ => ?_
  refine KeepsTo.tryCatch hrebuild fun exc => ?_
  refine KeepsTo.bind ?_ fun _ => keepsTo_throw exc
  exact KeepsTo.tryCatch (keepsTo_onGraph ((GraphStore.bound_markFailed _).mono hg')) fun _ =>
    keepsTo_pure ()

end replays

/-! ### The statements of an operation -/

lemma confined_onStore {α : Type} {P : Stmt → Prop} {m : Py EventStore α}
    {f : α → EventValue F X} {store : EventStore} (hm : KeepsTo P (EventStore.At env g) false m)
    (hstore : store.At env g) :
    Confined P (fun _ x => ∀ s, x.2 = some s → s.At env g) false (onStore m f store) := by
  apply confined_bind_iff.mpr
  refine (hm store false hstore nofun).mono (fun _ => id) ?_
  rintro b x ⟨-, hx⟩ s hs
  obtain rfl := Option.some.inj hs
  exact hx

lemma confined_onGraphStore {α : Type} {P : Stmt → Prop} {m : Py GraphStore α}
    {f : α → GraphValue F X} {store : GraphStore} (hm : KeepsTo P (GraphStore.At env g) false m)
    (hstore : store.At env g) :
    Confined P (fun _ x => ∀ s, x.2 = some s → s.At env g) false (onGraphStore m f store) := by
  apply confined_bind_iff.mpr
  refine (hm store false hstore nofun).mono (fun _ => id) ?_
  rintro b x ⟨-, hx⟩ s hs
  obtain rfl := Option.some.inj hs
  exact hx

lemma EventOp.confined_code {handle : Handle F} (hstore : handle.store.At env g)
    {op : EventOp F X} (hop : op.OnStore) :
    Confined (Stmt.Bound env g) (fun _ x => ∀ s, x.2 = some s → s.At env g) false
      (op.code env (some handle)) := by
  cases op with
  | open_ runId scope now => exact hop.elim
  | append event => exact confined_onStore (EventStore.bound_append event) hstore
  | truncateAfter id => exact confined_onStore (EventStore.bound_truncateAfter id) hstore
  | iterEvents after until_ =>
    exact confined_onStore (EventStore.bound_iterEvents after until_) hstore
  | getEvent id => exact confined_onStore (EventStore.bound_getEvent id) hstore
  | count => exact confined_onStore EventStore.bound_count hstore
  | verifyIntegrity => exact confined_onStore EventStore.bound_verifyIntegrity hstore
  | getRun => exact confined_onStore EventStore.bound_getRun hstore
  | upsertRun patch createdAt =>
    exact confined_onStore (EventStore.bound_upsertRun patch createdAt) hstore
  | forkPrefix newRunId id label now now' => exact hop.elim
  | close => exact confined_onStore EventStore.bound_close hstore

lemma GraphOp.confined_code {store : GraphStore} (hstore : store.At env g) {op : GraphOp F X}
    (hop : op.OnStore) :
    Confined (Stmt.Bound env g) (fun _ x => ∀ s, x.2 = some s → s.At env g) false
      (op.code env (some store)) := by
  cases op with
  | open_ runId scope => exact hop.elim
  | call c => exact confined_onGraphStore (inside_code c).bound hstore
  | projectionStatus => exact confined_onGraphStore GraphStore.inside_projectionStatus.bound hstore
  | beginRebuild => exact confined_onGraphStore GraphStore.bound_beginRebuild hstore
  | markReady => exact confined_onGraphStore GraphStore.bound_markReady hstore
  | markFailed error => exact confined_onGraphStore (GraphStore.bound_markFailed error) hstore
  | close => exact confined_onGraphStore GraphStore.bound_close hstore

lemma EventOp.code_none {op : EventOp F X} (hop : op.OnStore) :
    op.code env none = .done (.error noStore, none) := by
  cases op with
  | open_ runId scope now => exact hop.elim
  | forkPrefix newRunId id label now now' => exact hop.elim
  | _ => rfl

lemma GraphOp.code_none {op : GraphOp F X} (hop : op.OnStore) :
    op.code env none = .done (.error noStore, none) := by
  cases op with
  | open_ runId scope => exact hop.elim
  | _ => rfl

lemma toOption_some {α : Type} {x : Except PyErr α} {a : α} (h : x.toOption = some a) :
    x = .ok a := by
  cases x with
  | error e => cases h
  | ok b => rw [Option.some.inj h]

lemma EventOp.confined_open {l : Option (Handle F)} (runId scope now : String) :
    Confined (Stmt.ForRun env (scope, runId)) (fun _ x => ∀ s, x.2 = some s →
      s.At env (scope, runId)) false (EventOp.code env l (.open_ runId scope now)) := by
  have hnew : Confined (Stmt.ForRun env (scope, runId)) (fun _ (x : EventResult F X) =>
      ∀ s, x.2 = some s → s.At env (scope, runId)) false
      ((EventStore.new env runId scope now ()).bind fun x =>
        .done (x.1.map .store, x.1.toOption)) := by
    apply confined_bind_iff.mpr
    refine (EventStore.confined_new runId scope now () false).mono (fun _ hst => hst) ?_
    rintro b x ⟨hx, -⟩ s hs
    exact hx s (toOption_some hs)
  cases l with
  | none => exact hnew
  | some handle => exact hnew

lemma GraphOp.confined_open {l : Option GraphStore} (runId scope : String) :
    Confined (Stmt.ForRun env (scope, runId)) (fun _ x => ∀ s, x.2 = some s →
      s.At env (scope, runId)) false (GraphOp.code env l (.open_ runId scope)) := by
  have hnew : Confined (Stmt.ForRun env (scope, runId)) (fun _ (x : GraphResult F X) =>
      ∀ s, x.2 = some s → s.At env (scope, runId)) false
      ((GraphStore.new env runId scope ()).bind fun x =>
        .done (x.1.map .store, x.1.toOption)) := by
    apply confined_bind_iff.mpr
    refine (GraphStore.confined_new runId scope () false).mono (fun _ hst => hst) ?_
    rintro b x ⟨hx, -⟩ s hs
    exact hx s (toOption_some hs)
  cases l with
  | none => exact hnew
  | some store => exact hnew

section provider

variable {held : Held} {g' : String × String} {P : Stmt → Prop}

lemma Held.At.withEvents (h : held.At env g g') {store : Option EventStore}
    (hstore : ∀ s, store = some s → s.At env g) :
    Held.At env g g' { held with events := store <|> held.events } := by
  refine ⟨fun s hs => ?_, h.graph⟩
  cases store with
  | none => exact h.events s hs
  | some s' => exact hstore s hs

lemma Held.At.withGraph (h : held.At env g g') {store : Option GraphStore}
    (hstore : ∀ s, store = some s → s.At env g') :
    Held.At env g g' { held with graph := store <|> held.graph } := by
  refine ⟨h.events, fun s hs => ?_⟩
  cases store with
  | none => exact h.graph s hs
  | some s' => exact hstore s hs

/-- An operation on stores makes statements of their runs. -/
theorem ProviderOp.confined_code (hheld : held.At env g g')
    (hg : ∀ st : Stmt, st.Bound env g → P st) (hg' : ∀ st : Stmt, st.Bound env g' → P st)
    {op : ProviderOp F X} (hop : op.OnStores) :
    Confined P (fun _ x => x.2.At env g g') false (op.code env lib held) := by
  obtain ⟨events, graph⟩ := held
  cases op with
  | events op =>
    apply confined_bind_iff.mpr
    cases events with
    | none =>
      rw [Option.map_none, EventOp.code_none hop]
      exact hheld.withEvents nofun
    | some store =>
      refine (EventOp.confined_code (hheld.events store rfl) hop).mono hg ?_
      exact fun _ x hx => hheld.withEvents hx
  | graph op =>
    apply confined_bind_iff.mpr
    cases graph with
    | none =>
      rw [GraphOp.code_none hop]
      exact hheld.withGraph nofun
    | some store =>
      refine (GraphOp.confined_code (hheld.graph store rfl) hop).mono hg' ?_
      exact fun _ x hx => hheld.withGraph hx
  | replay =>
    cases events with
    | none => exact hheld
    | some eventStore =>
      cases graph with
      | none => exact hheld
      | some graphStore =>
        have hreplay : KeepsTo P (Stores.Are (EventStore.At env g) (GraphStore.At env g')) false
            (replayGraph env lib) := keepsTo_replayGraph hg hg'
        have hstores : Stores.Are (EventStore.At env g) (GraphStore.At env g')
            ⟨eventStore, graphStore⟩ := ⟨hheld.events _ rfl, hheld.graph _ rfl⟩
        apply confined_bind_iff.mpr
        refine (hreplay _ false hstores nofun).mono (fun _ => id) ?_
        rintro b x ⟨-, hevents, hgraph⟩
        refine ⟨fun s hs => ?_, fun s hs => ?_⟩
        · obtain rfl := Option.some.inj hs
          exact hevents
        · obtain rfl := Option.some.inj hs
          exact hgraph

/-- A fork makes statements of its two runs. -/
theorem ProviderOp.confined_fork (hheld : held.At env g g') {newRunId id : String}
    {label : Option String} {now now' : String} :
    Confined (Stmt.Among env (ForkRuns g newRunId)) (fun _ x => x.2.At env g g') false
      (code env lib held (.events (.forkPrefix newRunId id label now now'))) := by
  obtain ⟨events, graph⟩ := held
  apply confined_bind_iff.mpr
  cases events with
  | none => exact hheld.withEvents nofun
  | some store =>
    refine (confined_onStore (EventStore.keepsTo_forkPrefix newRunId id label now now')
      (hheld.events store rfl)).mono (fun _ hst => hst) ?_
    exact fun _ x hx => hheld.withEvents hx

/-- Whatever a client does, it makes statements of some run or of the schema lifecycle. -/
theorem ProviderOp.confined_among (hheld : held.Proper env) (op : ProviderOp F X) :
    Confined (Stmt.Among env fun _ => True) (fun _ x => x.2.Proper env) false
      (op.code env lib held) := by
  obtain ⟨g, g', hheld⟩ := hheld
  have hsome : ∀ g, ∀ st : Stmt, st.Bound env g → st.Among env fun _ => True :=
    fun g st hst => .inl ⟨g, trivial, hst⟩
  have hwider : ∀ runs, ∀ st : Stmt, st.Among env runs → st.Among env fun _ => True := by
    rintro runs st (⟨g, -, hst⟩ | hst)
    · exact hsome g st hst
    · exact .inr hst
  have hstores : ∀ op : ProviderOp F X, op.OnStores → Confined (Stmt.Among env fun _ => True)
      (fun _ x => x.2.Proper env) false (op.code env lib held) := by
    intro op hop
    exact (ProviderOp.confined_code hheld (hsome g) (hsome g') hop).mono (fun _ => id)
      fun _ x hx => ⟨g, g', hx⟩
  cases op with
  | replay => exact hstores _ trivial
  | events op =>
    cases op with
    | open_ runId scope now =>
      apply confined_bind_iff.mpr
      refine (EventOp.confined_open runId scope now).mono (hwider _) ?_
      rintro b ⟨r, store⟩ hstore
      cases store with
      | none => exact ⟨g, g', hheld⟩
      | some store => exact ⟨(scope, runId), g', hstore, hheld.graph⟩
    | forkPrefix newRunId id label now now' =>
      exact (ProviderOp.confined_fork hheld).mono (hwider _) fun _ x hx => ⟨g, g', hx⟩
    | _ => exact hstores _ trivial
  | graph op =>
    cases op with
    | open_ runId scope =>
      apply confined_bind_iff.mpr
      refine (GraphOp.confined_open runId scope).mono (hwider _) ?_
      rintro b ⟨r, store⟩ hstore
      cases store with
      | none => exact ⟨g, g', hheld⟩
      | some store => exact ⟨g, (scope, runId), hheld.events, hstore⟩
    | _ => exact hstores _ trivial

end provider

/-- Every run keeps the tables sound and every store in its run. -/
theorem provides_sound (hsha : CollisionFree env) {tr : List (ProviderLabel lib)}
    {c : ProviderConfig lib} (hr : Provides env sdk lib lostCall lostAnswer tr c) :
    Sound env c.shared.tables ∧ ∀ i, ClientConfined (providerSystem env sdk lib lostCall lostAnswer)
      (Stmt.Among env fun _ => True) (Sound env) (Write.Among env fun _ => True)
      (Held.Proper env) i c.shared (c.client i) := by
  have hproper : Held.Proper env ⟨none, none⟩ := ⟨("", ""), ("", ""), nofun, nofun⟩
  refine System.Run.confined (kept_among hsha sdk _) (fun _ => rfl) ?_ sound_empty
    (fun _ => hproper) hr
  intro held op hheld
  exact (ProviderOp.confined_among hheld op).mono (fun _ => id) fun _ x hx _ => hx

/-! ### Runs apart -/

lemma local_bound (hsha : CollisionFree env) (sdk : Sdk) (g : String × String) :
    Local (engine sdk) (Stmt.Bound env g) (Sound env) (Write.Bound env g) (fun _ => True)
      (·.part g) where
  toKept := kept_bound hsha sdk g
  owned _ _ := trivial
  agree _ _ _ hst ht ht' hpart := exec_agree hsha ht.toPlaced ht'.toPlaced hpart hst.of
  congr _ _ _ _ hpart := part_apply_congr hpart

/-- What stores of a run answer depends on the part of the run only. -/
theorem answers_of_part (hsha : CollisionFree env) {db db' : Database} (hdb : Sound env db.tables)
    (hdb' : Sound env db'.tables) (hpart : db.tables.part g = db'.tables.part g) {held : Held}
    (hheld : held.At env g g) {op : ProviderOp F X} (hop : op.OnStores) (j : Nat) :
    ((op.code env lib held).run ((engine sdk).perform j) db).1 =
      ((op.code env lib held).run ((engine sdk).perform j) db').1 := by
  have hcode : Confined (Stmt.Bound env g) (fun _ x => x.2.At env g g) false
      (op.code env lib held) := ProviderOp.confined_code hheld (fun _ => id) (fun _ => id) hop
  exact (hcode.sim (local_bound hsha sdk g) ⟨hdb, hdb', hpart, nofun⟩).1

/-- A program among other runs leaves the part of a run as it is. -/
lemma part_of_exec (hsha : CollisionFree env) {α : Type} {runs : String × String → Prop}
    {R : Bool → α → Prop} {φ : Faults PyErr} {i : Nat} {p : Prog Call Answer α}
    {db db' : Database} {a : α} {h : List (CallRec Call Answer Database)}
    (hp : Confined (Stmt.Among env runs) R false p)
    (he : p.Exec ((engine sdk).serve φ i) db h a db') (hdb : Sound env db.tables)
    (hg : ¬ runs g) : Sound env db'.tables ∧ db'.tables.part g = db.tables.part g := by
  obtain ⟨hdb', -, hcalls⟩ := hp.exec (kept_among hsha sdk runs) he hdb nofun
  refine ⟨hdb', ?_⟩
  have htrans : ∀ a b c : Database, b.tables.part g = a.tables.part g →
      c.tables.part g = b.tables.part g → c.tables.part g = a.tables.part g :=
    fun _ _ _ h h' => h'.trans h
  refine he.path (R := fun db db' => db'.tables.part g = db.tables.part g) (fun _ => rfl) htrans ?_
  intro rec hrec
  obtain ⟨hbefore, hmoves⟩ := hcalls rec hrec
  rcases hmoves with ⟨htables, -⟩ | ⟨ws, hws, hcommits⟩
  · rw [htables]
  · rw [hcommits.1]
    exact part_applyAll_among hsha hws hbefore hg

/-! ### Forks onto a run that exists -/

namespace EventStore

variable {φ : Faults PyErr} {i : Nat} {store : EventStore} {record : RecordId .agRun}
  {newRunId : String} {db : Database}

lemma always_destinationExists (hrecord : runKey env (store.scope, newRunId) = .ok record)
    (htaken : (db.tables.run.lookup record.key).isSome) :
    (destinationExists env newRunId store).Always ((engine sdk).serve φ i)
      (fun x db' => (db' = db ∧ x.2 = store) ∧ ∀ taken, x.1 = .ok taken → taken = true) db := by
  have hread : (destinationExists env newRunId store) =
      (query (.selectRun record) >>= fun row => (pure row.isSome : Py EventStore Bool)) store := by
    change (lift (runKey env (store.scope, newRunId)) >>= fun record =>
      query (.selectRun record) >>= fun row => (pure row.isSome : Py EventStore Bool)) store = _
    rw [hrecord]
    rfl
  have hreads : (engine sdk).Reads (.selectRun record) := reads_onLog trivial
  rw [hread]
  intro r db' hs
  obtain rfl := Engine.ReadCall.still ⟨_, rfl, hreads⟩ hs
  have hanswer : ∀ row, r = .ok row → row.isSome := by
    rintro row rfl
    rcases hs with h | ⟨e, -, he, -⟩
    · have hrow : (.ok row, db') = (((.ok (db'.tables.run.lookup record.key), db') :
          Except PyErr (Option RunRow) × Database)) := h
      obtain rfl := Except.ok.inj (congrArg Prod.fst hrow)
      exact htaken
    · cases he
  cases r with
  | error e => exact ⟨⟨rfl, rfl⟩, nofun⟩
  | ok row =>
    refine ⟨⟨rfl, rfl⟩, ?_⟩
    intro taken ht
    obtain rfl := Except.ok.inj ht
    exact hanswer row rfl

/-- A fork onto a run that has its record writes nothing. -/
theorem still_forkPrefix {id : String} {label : Option String} {now now' : String}
    (hrecord : runKey env (store.scope, newRunId) = .ok record)
    (htaken : (db.tables.run.lookup record.key).isSome) :
    (forkPrefix env newRunId id label now now' store).Always ((engine sdk).serve φ i)
      (fun _ db' => db' = db) db := by
  unfold forkPrefix
  refine still_get ?_
  refine still_bind makes_ensureOpen fun _ => ?_
  refine still_bind readsOnly_verifiedRowsAndRun fun verified => ?_
  refine still_bind (readsOnly_assertExpectedHead _) fun _ => ?_
  refine still_bind (makes_lift _) fun _ => ?_
  cases hkept : prefixRows id verified.1 with
  | none => exact rfl
  | some kept =>
    refine Method.always_bind (always_destinationExists hrecord htaken) ?_ fun _ _ _ h => h.1.1
    rintro taken store' db' ⟨⟨rfl, rfl⟩, htrue⟩
    obtain rfl := htrue taken rfl
    exact rfl

end EventStore

/-! ### Isolation -/

/-- The operation works through stores that are open. -/
def ProviderOp.Through : ProviderOp F X → Prop
  | events (.open_ ..) | graph (.open_ ..) => False
  | _ => True

/-- The run that an operation makes beside its own. -/
def ProviderOp.destination : ProviderOp F X → Option String
  | events (.forkPrefix newRunId ..) => some newRunId
  | _ => none

def Tables.HasRun (env : Env F X) (t : Tables) (g : String × String) : Prop :=
  ∃ record, runKey env g = .ok record ∧ (t.run.lookup record.key).isSome

lemma ProviderOp.through_cases {op : ProviderOp F X} (hop : op.Through) :
    op.OnStores ∨ ∃ newRunId id label now now', op = .events (.forkPrefix newRunId id label now now') := by
  cases op with
  | replay => exact .inl trivial
  | events op =>
    cases op with
    | open_ runId scope now => exact hop.elim
    | forkPrefix newRunId id label now now' => exact .inr ⟨_, _, _, _, _, rfl⟩
    | _ => exact .inl trivial
  | graph op =>
    cases op with
    | open_ runId scope => exact hop.elim
    | _ => exact .inl trivial

/-- A fork onto a run that has its record leaves the database as it is. -/
lemma still_fork {g g' : String × String} {held : Held} (hheld : held.At env g g')
    {φ : Faults PyErr} {i : Nat} {newRunId id : String} {label : Option String}
    {now now' : String} {db db' : Database} {h : List (CallRec Call Answer Database)}
    {r : ProviderResult lib} (hrun : db.tables.HasRun env (g.1, newRunId))
    (he : (ProviderOp.code env lib held (.events (.forkPrefix newRunId id label now now'))).Exec
      ((engine sdk).serve φ i) db h r db') : db' = db := by
  obtain ⟨record, hrecord, htaken⟩ := hrun
  obtain ⟨events, graph⟩ := held
  have hstill : (ProviderOp.code env lib ⟨events, graph⟩
      (.events (.forkPrefix newRunId id label now now'))).Always ((engine sdk).serve φ i)
      (fun _ db' => db' = db) db := by
    apply Prog.always_bind_iff.mpr
    cases events with
    | none => exact rfl
    | some store =>
      have hstore := hheld.events store rfl
      have haddress := hstore.address
      subst haddress
      apply Prog.always_bind_iff.mpr
      exact (EventStore.still_forkPrefix hrecord htaken).mono fun _ _ hsame => hsame
  exact Prog.always_iff.mp hstill h r db' he

/-- Whatever is done through stores of one run in a reachable state, stores of another run
answer as before, but for the run that a fork makes where none was. -/
theorem runs_isolated (hsha : CollisionFree env) {A B : String × String} (hAB : A ≠ B)
    {tr : List (ProviderLabel lib)} {c : ProviderConfig lib}
    (hr : Provides env sdk lib lostCall lostAnswer tr c) {held : Held} (hheld : held.At env A A)
    {op : ProviderOp F X} (hop : op.Through)
    (hfork : ∀ newRunId, op.destination = some newRunId → B = (A.1, newRunId) →
      c.shared.tables.HasRun env B)
    {i : Nat} {h : List (CallRec Call Answer Database)} {r : ProviderResult lib} {db' : Database}
    (he : (op.code env lib held).Exec ((engine sdk).serve (faults lostCall lostAnswer) i)
      c.shared h r db')
    {held' : Held} (hheld' : held'.At env B B) {read : ProviderOp F X} (hread : read.OnStores)
    (j : Nat) :
    ((read.code env lib held').run ((engine sdk).perform j) db').1 =
      ((read.code env lib held').run ((engine sdk).perform j) c.shared).1 := by
  have hsound : Sound env c.shared.tables := (provides_sound hsha hr).1
  have hpart : ∀ runs : String × String → Prop, Confined (Stmt.Among env runs)
      (fun _ x => x.2.At env A A) false (op.code env lib held) → ¬ runs B →
      ((read.code env lib held').run ((engine sdk).perform j) db').1 =
        ((read.code env lib held').run ((engine sdk).perform j) c.shared).1 := by
    intro runs hcode hB
    obtain ⟨hsound', hsame⟩ := part_of_exec hsha hcode he hsound hB
    exact answers_of_part hsha hsound' hsound hsame hheld' hread j
  rcases ProviderOp.through_cases hop with hstores | ⟨newRunId, id, label, now, now', rfl⟩
  · have hown : ∀ st : Stmt, st.Bound env A → st.Among env (· = A) := fun _ => forRun_bound
    exact hpart (· = A) (ProviderOp.confined_code hheld hown hown hstores) (Ne.symm hAB)
  · by_cases hB : B = (A.1, newRunId)
    · subst hB
      rw [still_fork hheld (hfork newRunId rfl rfl) he]
    · refine hpart (ForkRuns A newRunId) (ProviderOp.confined_fork hheld) ?_
      rintro (hB' | hB')
      · exact hAB hB'.symm
      · exact hB hB'

/-- A graph that keeps an object for each event. -/
def referenceFramework : Framework Unit Empty where
  Graph := Unit
  new _ := .done (.ok ())
  replayEvent _ event := .call (.putObject ⟨event.id, event.type, event.payload, 1, .obj []⟩)
    fun answer => .done answer
  reseed _ _ := .ok ()

abbrev ProviderOrders := List (System.Order Nat (ProviderOp Unit Empty))

/-- A schedule of the reference environment on an empty database. -/
def provided (orders : ProviderOrders) :
    List (ProviderLabel referenceFramework) × ProviderConfig referenceFramework :=
  (providerSystem (reference Unit) referenceSdk referenceFramework False False).schedule
    (performAll referenceSdk) ⟨freshDatabase, fun _ => .idle ⟨none, none⟩⟩ orders

lemma provides_provided (orders : ProviderOrders) :
    Provides (reference Unit) referenceSdk referenceFramework False False (provided orders).1
      (provided orders).2 :=
  System.Run.schedule (fun _ _ _ => Or.inl rfl) .nil orders

/-- The event store of a run in the reference environment. -/
def referenceStore (g : String × String) : EventStore where
  scope := g.1
  runId := g.2
  closed := false
  runRecord := (runKey (reference Unit) g).toOption.getD ⟨""⟩
  expectedNextSeq := 0
  expectedHeadHash := none

/-- Two runs are open, with the same logical ids. -/
def twoRuns : ProviderOrders :=
  [.start 0 (.events (.open_ "r" "s" "now")), .finish 0,
    .start 1 (.events (.open_ "r" "t" "now")), .finish 1,
    .start 1 (.events (.append (referenceEvent "a"))), .finish 1]

theorem runs_isolated_twoRuns :
    ((ProviderOp.code (reference Unit) referenceFramework ⟨some (referenceStore ("t", "r")), none⟩
        (.events .verifyIntegrity)).run ((engine referenceSdk).perform 1)
      ((ProviderOp.code (reference Unit) referenceFramework ⟨some (referenceStore ("s", "r")), none⟩
        (.events (.append (referenceEvent "a")))).run ((engine referenceSdk).perform 0)
        (provided twoRuns).2.shared).2).1 =
    ((ProviderOp.code (reference Unit) referenceFramework ⟨some (referenceStore ("t", "r")), none⟩
        (.events .verifyIntegrity)).run ((engine referenceSdk).perform 1)
      (provided twoRuns).2.shared).1 := by
  have hat : ∀ g, runKey (reference Unit) g = .ok (referenceStore g).runRecord →
      Held.At (reference Unit) g g ⟨some (referenceStore g), none⟩ := by
    intro g hg
    refine ⟨?_, nofun⟩
    intro store hstore
    obtain rfl := Option.some.inj hstore
    exact ⟨rfl, hg⟩
  have hop : (ProviderOp.events (.append (referenceEvent "a")) : ProviderOp Unit Empty).Through :=
    trivial
  have hread : (ProviderOp.events .verifyIntegrity : ProviderOp Unit Empty).OnStores := trivial
  exact runs_isolated reference_collisionFree (A := ("s", "r")) (B := ("t", "r")) (by decide)
    (provides_provided twoRuns) (hat _ rfl) hop nofun (Prog.exec_run (fun _ _ => .inl rfl) _ _)
    (hat _ rfl) hread 1

end ActiveGraphSurreal
