import ActiveGraphSurreal.Proofs.Clearing
import ActiveGraphSurreal.Proofs.Contents
import ActiveGraphSurreal.Proofs.Provider

/-!
# Replays

A replay marks its projection as rebuilding, clears it, reads the log, hands the events to
the graph and marks the projection as ready. Others may work on anything but the projection
meanwhile.
-/

namespace ActiveGraphSurreal

open Library

set_option linter.unusedSectionVars false

variable {F X : Type} [Json.ScalarText F] (env : Env F X)

/-- What others do that are no users of the projection. -/
abbrev Undisturbed (g : String × String) (i : Nat) (db db' : Database) : Prop :=
  Apart (Placed env) (OwnRecord env g) (Tables.contents · g) i db db'

variable {env} {g : String × String} {i : Nat} {sdk : Sdk} {t : Tables} {φ : Faults PyErr}

/-! ### The status -/

/-- The status of the projection record. -/
def Tables.statusOf (t : Tables) (record : RecordId .agProjection) : Option String :=
  (t.projection.lookup record.key).map (·.status)

def Contents.status (c : Contents) (record : RecordId .agProjection) : Option String :=
  (c.projection.dlookup record.key).map (·.status)

lemma statusOf_contents (hsha : CollisionFree env) (ht : Placed env t)
    {record : RecordId .agProjection} (hrecord : projectionKey env g = .ok record) :
    t.statusOf record = (t.contents g).status record := by
  unfold Tables.statusOf Contents.status
  rw [lookup_projection hsha ht hrecord]
  rfl

/-- A run has one projection record. -/
lemma exec_upsertProjection (ht : Placed env t)
    {record : RecordId .agProjection} {content : ProjectionRow}
    (hrecord : projectionKey env (content.scope, content.runId) = .ok record) :
    Stmt.exec sdk (.upsertProjection record content) t =
      .ok ((), [.projection record.key (some content)]) := by
  have hclash : t.projection.anyElse record.key (projectionClash content) = false := by
    rw [Bool.eq_false_iff, ne_eq, Records.anyElse_iff]
    rintro ⟨key, row, hkey, hrow, hsame⟩
    unfold projectionClash at hsame
    simp only [Bool.and_eq_true, decide_eq_true_eq] at hsame
    have hplace := ht.projection key row hrow
    rw [hsame.1, hsame.2, hrecord] at hplace
    exact hkey (RecordId.mk.inj (Except.ok.inj hplace)).symm
  simp only [Stmt.exec, upsert, hclash]
  rfl

/-- The status record after it is written. -/
lemma contents_upsertProjection (ht : Placed env t) {record : RecordId .agProjection}
    {content : ProjectionRow} (hrecord : projectionKey env g = .ok record)
    (haddress : (content.scope, content.runId) = g) :
    ((Write.projection record.key (some content)).apply t).contents g =
      { t.contents g with projection := [⟨record.key, content⟩] } := by
  have honly : ∀ key row, t.projection.lookup key = some row →
      (decide (row.scope = g.1) && decide (row.runId = g.2)) = true → key = record.key := by
    intro key row hrow howner
    simp only [Bool.and_eq_true, decide_eq_true_eq] at howner
    have hplace := ht.projection key row hrow
    rw [howner.1, howner.2, hrecord] at hplace
    exact (congrArg RecordId.key (Except.ok.inj hplace)).symm
  have hpart := Records.owned_write_only honly (isOwner haddress)
  unfold Tables.contents Part.contents Tables.part Write.apply
  simp only [hpart]

/-! ### Steps among others -/

/-- A statement that is lost or carried out after whatever the others do. -/
lemma always_amid_write {α : Type} {others : Database → Database → Prop}
    {Q : α → Database → Prop} {st : Stmt} {k : Except PyErr st.Reply → Prog Call Answer α}
    {db : Database} (hφ : ¬ φ.lostAnswer)
    (hstep : ∀ db₁, others db db₁ →
      (∀ e, (k (.error e)).Always (amid others ((engine sdk).serve φ i)) Q db₁) ∧
      ∃ r ws, st.exec sdk db₁.tables = .ok (r, ws) ∧ (k (.ok r)).Always
        (amid others ((engine sdk).serve φ i)) Q (GraphStore.after sdk i st db₁)) :
    (Prog.call (.query st) k).Always (amid others ((engine sdk).serve φ i)) Q db := by
  rintro r' db' ⟨db₁, hothers, hs⟩
  obtain ⟨hlost, r, ws, hexec, hok⟩ := hstep db₁ hothers
  rcases hs with hs | ⟨e, -, rfl, ⟨-, rfl⟩ | ⟨hanswer, -⟩⟩
  · have hperform : (engine sdk).perform i (.query st) db₁ =
        (.ok r, GraphStore.after sdk i st db₁) := by
      refine Prod.ext ?_ rfl
      simp only [Engine.perform, engine, hexec]
    rw [hperform] at hs
    obtain ⟨rfl, rfl⟩ := Prod.mk.inj hs
    exact hok
  · exact hlost e
  · exact absurd hanswer hφ

namespace GraphStore

variable {store : GraphStore} {db : Database}

lemma contents_after_relations : (after sdk i (.deleteRelations g.1 g.2) db).tables.contents g =
    { db.tables.contents g with relation := [] } := congrArg Part.contents part_after_relations

lemma contents_after_patches : (after sdk i (.deletePatches g.1 g.2) db).tables.contents g =
    { db.tables.contents g with patch := [] } := congrArg Part.contents part_after_patches

lemma contents_after_vertices (hsha : CollisionFree env) (ht : Placed env db.tables)
    (hrelation : (db.tables.contents g).relation = []) :
    (after sdk i (.deleteVertices g.1 g.2) db).tables.contents g =
      { db.tables.contents g with vertex := [] } :=
  congrArg Part.contents (part_after_vertices hsha ht hrelation)

lemma contents_cleared (hsha : CollisionFree env) (ht : Placed env db.tables) :
    (cleared sdk i g db).tables.contents g = ⟨(db.tables.contents g).projection, [], [], []⟩ :=
  congrArg Part.contents (part_cleared hsha ht)

/-- The database after a status write. -/
def marked (sdk : Sdk) (i : Nat) (store : GraphStore) (status : String) (error : Option String)
    (db : Database) : Database :=
  after sdk i (.upsertProjection store.projectionRecord ⟨store.scope, store.runId, status, error⟩)
    db

variable (sdk) in
lemma exec_mark (h : store.At env g) (ht : Placed env db.tables) (status : String)
    (error : Option String) :
    Stmt.exec sdk (.upsertProjection store.projectionRecord
      ⟨store.scope, store.runId, status, error⟩) db.tables =
      .ok ((), [.projection store.projectionRecord.key
        (some ⟨store.scope, store.runId, status, error⟩)]) := by
  have haddress := h.address
  subst haddress
  exact exec_upsertProjection ht h.record

lemma placed_marked (hsha : CollisionFree env) (h : store.At env g) (ht : Placed env db.tables)
    (status : String) (error : Option String) :
    Placed env (marked sdk i store status error db).tables :=
  placed_after hsha ht (g := g) ⟨h.record, h.address⟩ (exec_mark sdk h ht status error)

lemma contents_marked (h : store.At env g) (ht : Placed env db.tables) (status : String)
    (error : Option String) : (marked sdk i store status error db).tables.contents g =
      { db.tables.contents g with
        projection := [⟨store.projectionRecord.key, ⟨g.1, g.2, status, error⟩⟩] } := by
  have haddress := h.address
  subst haddress
  unfold marked
  rw [tables_after sdk i (exec_mark sdk h ht status error)]
  exact contents_upsertProjection ht h.record rfl

/-- A status write is done or has no effect. -/
lemma always_setProjectionStatus (hsha : CollisionFree env) (hφ : ¬ φ.lostAnswer)
    (h : store.At env g) (ht : Placed env db.tables) (status : String) (error : Option String) :
    (setProjectionStatus status error store).Always
      (amid (Undisturbed env g i) ((engine sdk).serve φ i)) (fun x db' => x.2 = store ∧
        Placed env db'.tables ∧
        ((∃ e, x.1 = .error e) ∧ db'.tables.contents g = db.tables.contents g ∨
          x.1 = .ok () ∧ db'.tables.contents g = { db.tables.contents g with
            projection := [⟨store.projectionRecord.key, ⟨g.1, g.2, status, error⟩⟩] })) db := by
  refine always_amid_write hφ fun db₁ hothers => ?_
  have ht₁ : Placed env db₁.tables := hothers.inv ht
  refine ⟨fun e => ⟨rfl, ht₁, .inl ⟨⟨e, rfl⟩, hothers.same⟩⟩, (), _,
    exec_mark sdk h ht₁ status error, rfl, placed_marked hsha h ht₁ status error, .inr ⟨rfl, ?_⟩⟩
  rw [← hothers.same]
  exact contents_marked h ht₁ status error

/-- A clearing among others that returns has removed every entity. -/
lemma always_amid_clear (hsha : CollisionFree env) (hφ : ¬ φ.lostAnswer) (h : store.At env g)
    (hopen : store.closed = false) (ht : Placed env db.tables) :
    (clear store).Always (amid (Undisturbed env g i) ((engine sdk).serve φ i)) (fun x db' =>
      x.2 = store ∧ Placed env db'.tables ∧
      (db'.tables.contents g).projection = (db.tables.contents g).projection ∧
      (x.1 = .ok () → db'.tables.contents g = ⟨(db.tables.contents g).projection, [], [], []⟩))
      db := by
  have haddress := h.address
  subst haddress
  rw [clear_eq hopen]
  refine always_amid_write hφ fun db₁ h₁ => ?_
  have ht₁ : Placed env db₁.tables := h₁.inv ht
  refine ⟨fun e => ⟨rfl, ht₁, congrArg Contents.projection h₁.same, nofun⟩, (), _, rfl, ?_⟩
  refine always_amid_write hφ fun db₂ h₂ => ?_
  have ht₂ : Placed env db₂.tables := h₂.inv (placed_after hsha ht₁ (g := store.address) rfl rfl)
  have hsame₂ : db₂.tables.contents store.address =
      { db.tables.contents store.address with relation := [] } := by
    rw [h₂.same, ← h₁.same]
    exact contents_after_relations
  refine ⟨fun e => ⟨rfl, ht₂, by rw [hsame₂], nofun⟩, (), _, rfl, ?_⟩
  refine always_amid_write hφ fun db₃ h₃ => ?_
  have ht₃ : Placed env db₃.tables := h₃.inv (placed_after hsha ht₂ (g := store.address) rfl rfl)
  have hsame₃ : db₃.tables.contents store.address =
      { db.tables.contents store.address with relation := [], patch := [] } := by
    rw [h₃.same]
    refine contents_after_patches.trans ?_
    rw [hsame₂]
  have hsame₄ : (after sdk i (.deleteVertices store.scope store.runId) db₃).tables.contents
      store.address = ⟨(db.tables.contents store.address).projection, [], [], []⟩ := by
    refine (contents_after_vertices hsha ht₃ (congrArg Contents.relation hsame₃)).trans ?_
    rw [hsame₃]
  refine ⟨fun e => ⟨rfl, ht₃, by rw [hsame₃], nofun⟩, (), _, rfl, rfl, ?_, ?_⟩
  · exact placed_after hsha ht₃ (g := store.address) rfl rfl
  · exact ⟨by rw [hsame₄], fun _ => hsame₄⟩

lemma always_ensureOpen {α : Type} {serve : Server Call Answer Database}
    {Q : Except PyErr α × GraphStore → Database → Prop} {f : Unit → Py GraphStore α}
    (hclosed : ∀ e, Q (.error e, store) db)
    (hopen : store.closed = false → (f () store).Always serve Q db) :
    ((ensureOpen >>= f) store).Always serve Q db := by
  cases hstate : store.closed with
  | true =>
    have hraises : (ensureOpen >>= f) store =
        .done (.error ⟨.closedStoreError, "the SurrealGraphStore is closed"⟩, store) := by
      change ((lift (raiseIf (store.closed = true) _) : Py GraphStore Unit) store).bind _ = _
      rw [hstate]
      rfl
    rw [hraises]
    exact hclosed _
  | false =>
    change ((ensureOpen store).bind _).Always serve Q db
    rw [ensureOpen_eq hstate]
    exact hopen hstate

/-- The contents of a projection right after `begin_rebuild`. -/
def rebuilt (store : GraphStore) (g : String × String) : Contents :=
  ⟨[⟨store.projectionRecord.key, ⟨g.1, g.2, "rebuilding", none⟩⟩], [], [], []⟩

/-- A beginning that returns leaves an empty projection; one that raises leaves the entities
or has marked the projection as rebuilding. -/
lemma always_beginRebuild (hsha : CollisionFree env) (hφ : ¬ φ.lostAnswer) (h : store.At env g)
    (ht : Placed env db.tables) :
    (beginRebuild store).Always (amid (Undisturbed env g i) ((engine sdk).serve φ i)) (fun x db' =>
      Placed env db'.tables ∧
      ((∃ e, x.1 = .error e) ∧ x.2.At env g ∧
          (db'.tables.contents g = db.tables.contents g ∨
            (db'.tables.contents g).projection = (store.rebuilt g).projection) ∨
        x.1 = .ok () ∧ x.2 = { store with rebuildingHere := true } ∧ store.closed = false ∧
          db'.tables.contents g = store.rebuilt g)) db := by
  unfold beginRebuild
  refine always_ensureOpen (fun e => ⟨ht, .inl ⟨⟨e, rfl⟩, h, .inl rfl⟩⟩) fun hopen => ?_
  refine Method.always_bind (always_setProjectionStatus hsha hφ h ht "rebuilding" none) ?_ ?_
  · rintro _ store' db₁ ⟨hstore, ht₁, ⟨⟨e, he⟩, -⟩ | ⟨-, hstatus⟩⟩
    · cases he
    obtain rfl : store' = store := hstore
    have h₁ : GraphStore.At env g { store' with rebuildingHere := true } := ⟨h.address, h.record⟩
    refine (always_amid_clear hsha hφ h₁ hopen ht₁).mono ?_
    rintro ⟨r, store₂⟩ db₂ ⟨hstore₂, ht₂, hprojection, hcleared⟩
    obtain rfl : store₂ = _ := hstore₂
    have hmarked : (db₁.tables.contents g).projection = (store'.rebuilt g).projection := by
      rw [hstatus]
      rfl
    rw [hmarked] at hprojection hcleared
    cases r with
    | error e => exact ⟨ht₂, .inl ⟨⟨e, rfl⟩, h₁, .inr hprojection⟩⟩
    | ok u => exact ⟨ht₂, .inr ⟨rfl, rfl, hopen, hcleared rfl⟩⟩
  · rintro e store' db₁ ⟨hstore, ht₁, ⟨-, hsame⟩ | ⟨he, -⟩⟩
    · obtain rfl : store' = store := hstore
      exact ⟨ht₁, .inl ⟨⟨e, rfl⟩, h, .inl hsame⟩⟩
    · cases he

/-- A mark is set or has no effect. -/
lemma always_mark (hsha : CollisionFree env) (hφ : ¬ φ.lostAnswer) (h : store.At env g)
    (ht : Placed env db.tables) (status : String) (error : Option String) :
    ((do
      ensureOpen
      setProjectionStatus status error
      modify fun self => { self with rebuildingHere := false } : Py GraphStore Unit) store).Always
      (amid (Undisturbed env g i) ((engine sdk).serve φ i)) (fun x db' => x.2.At env g ∧
        Placed env db'.tables ∧
        ((∃ e, x.1 = .error e) ∧ db'.tables.contents g = db.tables.contents g ∨
          x.1 = .ok () ∧ db'.tables.contents g = { db.tables.contents g with
            projection := [⟨store.projectionRecord.key, ⟨g.1, g.2, status, error⟩⟩] })) db := by
  refine always_ensureOpen (fun e => ⟨h, ht, .inl ⟨⟨e, rfl⟩, rfl⟩⟩) fun _ => ?_
  refine Method.always_bind (always_setProjectionStatus hsha hφ h ht status error) ?_ ?_
  · rintro _ store' db₁ ⟨hstore, ht₁, ⟨⟨e, he⟩, -⟩ | ⟨-, hstatus⟩⟩
    · cases he
    obtain rfl : store' = store := hstore
    exact ⟨⟨h.address, h.record⟩, ht₁, .inr ⟨rfl, hstatus⟩⟩
  · rintro e store' db₁ ⟨hstore, ht₁, ⟨-, hsame⟩ | ⟨he, -⟩⟩
    · obtain rfl : store' = store := hstore
      exact ⟨h, ht₁, .inl ⟨⟨e, rfl⟩, hsame⟩⟩
    · cases he

end GraphStore

/-! ### The graph at work -/

lemma always_onGraph {α : Type} {serve : Server Call Answer Database}
    {Q : Except PyErr α × Stores → Database → Prop} {m : Py GraphStore α} {stores : Stores}
    {db : Database}
    (hm : (m stores.graph).Always serve (fun x db' => Q (x.1, { stores with graph := x.2 }) db') db) :
    (onGraph m stores).Always serve Q db := Prog.always_bind_iff.mpr hm

lemma always_onEvents {α : Type} {serve : Server Call Answer Database}
    {Q : Except PyErr α × Stores → Database → Prop} {m : Py EventStore α} {stores : Stores}
    {db : Database}
    (hm : (m stores.events).Always serve (fun x db' => Q (x.1, { stores with events := x.2 }) db')
      db) : (onEvents m stores).Always serve Q db := Prog.always_bind_iff.mpr hm

/-- Stores whose graph store is bound to the run. -/
abbrev OnRun (env : Env F X) (g : String × String) : Stores → Prop :=
  Stores.Are (fun _ => True) (GraphStore.At env g)

/-- While a graph works among others, the status stays as it is. -/
lemma always_inside (hsha : CollisionFree env) {α : Type} {m : Py Stores α}
    (hm : KeepsTo (Stmt.Inside env g) (OnRun env g) false m) {stores : Stores}
    (hstores : OnRun env g stores) {db : Database} (ht : Placed env db.tables) :
    (m stores).Always (amid (Undisturbed env g i) ((engine sdk).serve φ i)) (fun x db' =>
      OnRun env g x.2 ∧ Placed env db'.tables ∧
      (db'.tables.contents g).projection = (db.tables.contents g).projection) db := by
  have hmoves : ∀ db db' : Database, Placed env db.tables →
      Moves (engine sdk) (Write.Entity env g) db db' →
      (db'.tables.contents g).projection = (db.tables.contents g).projection := by
    rintro db db' - (⟨htables, -⟩ | ⟨ws, hws, htables, -⟩)
    · rw [htables]
    · have hsame : ((engine sdk).applyAll ws db.tables).projection = db.tables.projection :=
        projection_applyAll fun w hw => (hws w hw).entity
      rw [← htables] at hsame
      unfold Tables.contents Part.contents Tables.part
      simp only [hsame]
  refine ((hm stores false hstores nofun).always_amid (M := fun db db' : Database =>
      (db'.tables.contents g).projection = (db.tables.contents g).projection)
    (kept_entities hsha sdk g) (fun db db' h => ⟨h.inv, h.tx⟩) (fun _ => rfl)
    (fun _ _ _ h h' => h'.trans h) (fun db db' h => congrArg Contents.projection h.same) hmoves ht
    nofun).mono ?_
  rintro x db' ⟨ht', hsame, b, ⟨-, hx⟩, -⟩
  exact ⟨hx, ht', hsame⟩

variable (env) in
/-- The rest of a replay, after the log has been read. -/
def project (lib : Framework F X) (runId : String) (events : List (Event F X)) :
    Py Stores lib.Graph := do
  lift (raiseIf (events.head?.any fun event => event.type = "runtime.snapshot")
    ⟨.unsupportedCompactedRunError,
      "runtime.snapshot replay is outside the uncompacted preview contract"⟩)
  let graph ← interpret env (lib.new runId)
  let graph ← replayEvents env lib graph events
  lift (lib.reseed graph events)

variable (env) in
/-- The rest of a replay from the events on, to its mark. -/
def finishReplay (lib : Framework F X) (runId : String) (events : List (Event F X)) :
    Py Stores lib.Graph := do
  let graph ← project env lib runId events
  onGraph GraphStore.markReady
  return graph

variable {lib : Framework F X} {stores : Stores} {db : Database}

lemma rebuild_eq : rebuild env lib stores = (do
    onGraph GraphStore.beginRebuild
    let events ← onEvents (EventStore.iterEvents env none none)
    finishReplay env lib stores.events.runId events : Py Stores lib.Graph) stores := by
  unfold rebuild finishReplay project
  simp only [Method.bind_assoc]
  rfl

lemma inside_project (runId : String) (events : List (Event F X)) :
    KeepsTo (Stmt.Inside env g) (OnRun env g) false (project env lib runId events) := by
  unfold project
  refine (keepsTo_lift _).bind fun _ => (keepsTo_interpret inside_code _).bind fun graph => ?_
  exact (keepsTo_replayEvents inside_code graph events).bind fun graph => keepsTo_lift _

/-! ### A replay among others -/

variable (g) in
/-- The projection record alone, with a status. -/
def statusRow (record : RecordId .agProjection) (status : String) (error : Option String) :
    Entries ProjectionRow := [⟨record.key, ⟨g.1, g.2, status, error⟩⟩]

lemma status_of_statusRow {c : Contents} {record : RecordId .agProjection} {status : String}
    {error : Option String} (h : c.projection = statusRow g record status error) :
    c.status record = some status := by
  unfold Contents.status
  rw [h]
  unfold statusRow
  rw [List.dlookup_cons_eq]
  rfl

/-- How the guarded part of a replay ends. -/
def Rebuilds {α : Type} (env : Env F X) (g : String × String) (record : RecordId .agProjection)
    (c : Contents) (x : Except PyErr α × Stores) (db' : Database) : Prop :=
  OnRun env g x.2 ∧ Placed env db'.tables ∧
  ((∃ e, x.1 = .error e) ∧ (db'.tables.contents g = c ∨
      (db'.tables.contents g).projection = statusRow g record "rebuilding" none) ∨
    (∃ a, x.1 = .ok a) ∧ (db'.tables.contents g).projection = statusRow g record "ready" none)

lemma always_finishReplay (hsha : CollisionFree env) (hφ : ¬ φ.lostAnswer) {c : Contents}
    {record : RecordId .agProjection} (hrecord : projectionKey env g = .ok record)
    (hstores : OnRun env g stores) (ht : Placed env db.tables)
    (hmarked : (db.tables.contents g).projection = statusRow g record "rebuilding" none)
    (runId : String) (events : List (Event F X)) :
    (finishReplay env lib runId events stores).Always
      (amid (Undisturbed env g i) ((engine sdk).serve φ i)) (Rebuilds env g record c) db := by
  unfold finishReplay
  refine Method.always_bind (always_inside hsha (inside_project runId events) hstores ht) ?_ ?_
  · rintro graph stores₁ db₁ ⟨hstores₁, ht₁, hsame₁⟩
    have hrecord₁ : stores₁.graph.projectionRecord = record :=
      Except.ok.inj (hstores₁.2.record.symm.trans hrecord)
    refine Method.always_bind (always_onGraph (Q := Rebuilds env g record c)
      ((GraphStore.always_mark hsha hφ hstores₁.2 ht₁ "ready" none).mono ?_)) ?_ ?_
    · rintro x db₂ ⟨hstore, ht₂, ⟨herror, hsame⟩ | ⟨hok, hready⟩⟩
      · refine ⟨⟨trivial, hstore⟩, ht₂, .inl ⟨herror, .inr ?_⟩⟩
        rw [hsame, hsame₁, hmarked]
      · refine ⟨⟨trivial, hstore⟩, ht₂, .inr ⟨⟨(), hok⟩, ?_⟩⟩
        rw [hready, hrecord₁]
        rfl
    · rintro u stores₂ db₂ ⟨hstores₂, ht₂, ⟨⟨e, he⟩, -⟩ | ⟨-, hready⟩⟩
      · cases he
      · exact ⟨hstores₂, ht₂, .inr ⟨⟨graph, rfl⟩, hready⟩⟩
    · rintro e stores₂ db₂ ⟨hstores₂, ht₂, ⟨-, hrest⟩ | ⟨⟨u, hu⟩, -⟩⟩
      · exact ⟨hstores₂, ht₂, .inl ⟨⟨e, rfl⟩, hrest⟩⟩
      · cases hu
  · rintro e stores₁ db₁ ⟨hstores₁, ht₁, hsame₁⟩
    exact ⟨hstores₁, ht₁, .inl ⟨⟨e, rfl⟩, .inr (hsame₁.trans hmarked)⟩⟩

variable (stores db) in
/-- While the log is read among others, nothing happens to the projection. -/
lemma always_readEvents :
    (onEvents (EventStore.iterEvents env none none) stores).Always
      (amid (Undisturbed env g i) ((engine sdk).serve φ i))
      (fun x db' => Undisturbed env g i db db' ∧ x.2 = stores) db := by
  have hreads : ReadsOnly sdk (EventStore.iterEvents env none none) :=
    (EventStore.makes_iterEvents none none).mono fun _ => reads_onLog
  apply always_onEvents
  refine (always_amid_reads (Apart.refl i) (fun _ _ _ => Apart.trans) hreads stores.events db).mono ?_
  rintro x db' ⟨hothers, hsame⟩
  refine ⟨hothers, ?_⟩
  rw [hsame]

/-- The guarded part of a replay returns with a ready projection, and raises with the
contents untouched or marked as rebuilding. -/
lemma always_rebuild (hsha : CollisionFree env) (hφ : ¬ φ.lostAnswer)
    (hstores : OnRun env g stores) (ht : Placed env db.tables) :
    (rebuild env lib stores).Always (amid (Undisturbed env g i) ((engine sdk).serve φ i))
      (Rebuilds env g stores.graph.projectionRecord (db.tables.contents g)) db := by
  rw [rebuild_eq]
  refine Method.always_bind (always_onGraph (Q := fun x db₁ => OnRun env g x.2 ∧
    Placed env db₁.tables ∧ ((∃ e, x.1 = .error e) ∧ (db₁.tables.contents g = db.tables.contents g ∨
      (db₁.tables.contents g).projection =
        statusRow g stores.graph.projectionRecord "rebuilding" none) ∨
      x.1 = .ok () ∧ (db₁.tables.contents g).projection =
        statusRow g stores.graph.projectionRecord "rebuilding" none))
    ((GraphStore.always_beginRebuild hsha hφ hstores.2 ht).mono ?_)) ?_ ?_
  · rintro ⟨r, store⟩ db₁ ⟨ht₁, ⟨herror, hstore, hend⟩ | ⟨hok, hstore, -, hend⟩⟩
    · exact ⟨⟨trivial, hstore⟩, ht₁, .inl ⟨herror, hend⟩⟩
    · obtain rfl : store = _ := hstore
      refine ⟨⟨trivial, hstores.2.address, hstores.2.record⟩, ht₁, .inr ⟨hok, ?_⟩⟩
      rw [hend]
      rfl
  · rintro u stores₁ db₁ ⟨hstores₁, ht₁, ⟨⟨e, he⟩, -⟩ | ⟨-, hmarked⟩⟩
    · cases he
    refine Method.always_bind (always_readEvents stores₁ db₁) ?_ ?_
    · rintro events stores₂ db₂ ⟨hothers, hsame⟩
      obtain rfl : stores₂ = stores₁ := hsame
      rw [← hothers.same] at hmarked
      exact always_finishReplay hsha hφ hstores.2.record hstores₁ (hothers.inv ht₁) hmarked _ events
    · rintro e stores₂ db₂ ⟨hothers, hsame⟩
      obtain rfl : stores₂ = stores₁ := hsame
      rw [← hothers.same] at hmarked
      exact ⟨hstores₁, hothers.inv ht₁, .inl ⟨⟨e, rfl⟩, .inr hmarked⟩⟩
  · rintro e stores₁ db₁ ⟨hstores₁, ht₁, ⟨-, hend⟩ | ⟨hu, -⟩⟩
    · exact ⟨hstores₁, ht₁, .inl ⟨⟨e, rfl⟩, hend⟩⟩
    · cases hu

variable (env g) in
/-- The entities are those before the replay, or the projection is not ready. -/
def FailsClosed (record : RecordId .agProjection) (c : Contents) (db' : Database) : Prop :=
  Placed env db'.tables ∧ ((db'.tables.contents g).entities = c.entities ∨
    (db'.tables.contents g).status record ≠ some "ready")

/-- After the mark of a failure, set or not, the projection is still closed. -/
lemma always_markFailed (hsha : CollisionFree env) (hφ : ¬ φ.lostAnswer)
    (hstores : OnRun env g stores) {record : RecordId .agProjection}
    (hrecord : projectionKey env g = .ok record) {c : Contents}
    (hclosed : FailsClosed env g record c db) (error : Option (PyErr ⊕ String)) :
    (onGraph (GraphStore.markFailed error) stores).Always
      (amid (Undisturbed env g i) ((engine sdk).serve φ i))
      (fun _ db' => FailsClosed env g record c db') db := by
  have hsame : stores.graph.projectionRecord = record :=
    Except.ok.inj (hstores.2.record.symm.trans hrecord)
  apply always_onGraph
  refine (GraphStore.always_mark hsha hφ hstores.2 hclosed.1 "failed"
    (some (GraphStore.failureDetail error))).mono ?_
  rintro x db' ⟨-, ht', ⟨-, hkept⟩ | ⟨-, hfailed⟩⟩
  · refine ⟨ht', ?_⟩
    rw [hkept]
    exact hclosed.2
  · rw [hsame] at hfailed
    refine ⟨ht', .inr ?_⟩
    have hstatus := status_of_statusRow (g := g) (c := db'.tables.contents g) (by rw [hfailed]; rfl)
    rw [hstatus]
    decide

/-- What follows after the guarded part of a replay has raised. -/
lemma always_raised {α : Type} (hsha : CollisionFree env) (hφ : ¬ φ.lostAnswer)
    (hstores : OnRun env g stores) {record : RecordId .agProjection}
    (hrecord : projectionKey env g = .ok record) {c : Contents}
    (hclosed : FailsClosed env g record c db) (exc : PyErr) :
    ((do
      tryCatch (onGraph (GraphStore.markFailed (some (.inl exc)))) fun _ => pure ()
      throw exc : Py Stores α) stores).Always
      (amid (Undisturbed env g i) ((engine sdk).serve φ i))
      (fun x db' => (∃ e, x.1 = .error e) ∧ FailsClosed env g record c db') db := by
  refine Method.always_bind (M := fun _ db' => FailsClosed env g record c db') ?_ ?_ ?_
  · exact Method.always_tryCatch (always_markFailed hsha hφ hstores hrecord hclosed _)
      (fun _ _ _ h => h) fun _ _ _ h => h
  · exact fun _ _ _ h => ⟨⟨exc, rfl⟩, h⟩
  · exact fun e _ _ h => ⟨⟨e, rfl⟩, h⟩

/-- A replay that returns leaves a ready projection; one that raises leaves the entities or a
status other than ready. -/
theorem always_replayGraph (hsha : CollisionFree env) (hφ : ¬ φ.lostAnswer)
    (hstores : OnRun env g stores) (ht : Placed env db.tables) :
    (replayGraph env lib stores).Always (amid (Undisturbed env g i) ((engine sdk).serve φ i))
      (fun x db' => (∃ e, x.1 = .error e) ∧
          FailsClosed env g stores.graph.projectionRecord (db.tables.contents g) db' ∨
        (∃ a, x.1 = .ok a) ∧ Placed env db'.tables ∧
          (db'.tables.contents g).status stores.graph.projectionRecord = some "ready") db := by
  have hstart : ∀ r : Except PyErr Unit, (Method.lift r stores : Prog Call Answer _).Always
      (amid (Undisturbed env g i) ((engine sdk).serve φ i))
      (fun x db' => x.2 = stores ∧ db' = db) db := fun r => Method.always_lift ⟨rfl, rfl⟩
  have hrefused : FailsClosed env g stores.graph.projectionRecord (db.tables.contents g) db :=
    ⟨ht, .inl rfl⟩
  unfold replayGraph
  refine Method.always_bind (M := fun x db' => x = (.ok stores, stores) ∧ db' = db)
    ⟨rfl, rfl⟩ ?_ ?_
  · rintro _ _ _ ⟨hx, rfl⟩
    cases hx
    refine Method.always_bind (hstart _) ?_ ?_
    · rintro _ _ _ ⟨rfl, rfl⟩
      refine Method.always_bind (hstart _) ?_ ?_
      · rintro _ _ _ ⟨rfl, rfl⟩
        refine Method.always_tryCatch (always_rebuild hsha hφ hstores ht) ?_ ?_
        · rintro a stores₁ db₁ ⟨-, ht₁, ⟨⟨e, he⟩, -⟩ | ⟨-, hready⟩⟩
          · cases he
          · exact .inr ⟨⟨a, rfl⟩, ht₁, status_of_statusRow hready⟩
        · rintro exc stores₁ db₁ ⟨hstores₁, ht₁, ⟨-, hend⟩ | ⟨⟨a, ha⟩, -⟩⟩
          · refine (always_raised hsha hφ hstores₁ hstores.2.record ⟨ht₁, ?_⟩ exc).mono
              fun x db' h => .inl h
            rcases hend with hsame | hmarked
            · exact .inl (congrArg Contents.entities hsame)
            · rw [status_of_statusRow hmarked]
              exact .inr (by decide)
          · cases ha
      · rintro e _ _ ⟨rfl, rfl⟩
        exact .inl ⟨⟨e, rfl⟩, hrefused⟩
    · rintro e _ _ ⟨rfl, rfl⟩
      exact .inl ⟨⟨e, rfl⟩, hrefused⟩
  · rintro e _ _ ⟨hx, -⟩
    cases hx

/-! ### A replay alone -/

/-- The tables of the event store are the same. -/
def SameLedger (db db' : Database) : Prop :=
  db'.tables.run = db.tables.run ∧ db'.tables.event = db.tables.event

lemma SameLedger.trans {db₁ db₂ db₃ : Database} (h : SameLedger db₁ db₂)
    (h' : SameLedger db₂ db₃) : SameLedger db₁ db₃ := ⟨h'.1.trans h.1, h'.2.trans h.2⟩

namespace GraphStore

variable {store : GraphStore}

/-- The database after an undisturbed `begin_rebuild`. -/
def begun (sdk : Sdk) (i : Nat) (store : GraphStore) (db : Database) : Database :=
  cleared sdk i store.address (marked sdk i store "rebuilding" none db)

lemma alone_beginRebuild (h : store.At env g) (hopen : store.closed = false)
    (ht : Placed env db.tables) : alone sdk i beginRebuild store db =
      ((.ok (), { store with rebuildingHere := true }), begun sdk i store db) := by
  have hstatus : alone sdk i (setProjectionStatus "rebuilding" none) store db =
      ((.ok (), store), marked sdk i store "rebuilding" none db) := by
    unfold setProjectionStatus
    rw [alone_bind, alone_get, aloneThen_ok]
    exact alone_after store (exec_mark sdk h ht "rebuilding" none)
  have hrebuilding : GraphStore.At env store.address { store with rebuildingHere := true } := by
    have haddress := h.address
    subst haddress
    exact ⟨rfl, h.record⟩
  have hclear : alone sdk i clear { store with rebuildingHere := true }
      (marked sdk i store "rebuilding" none db) =
      ((.ok (), { store with rebuildingHere := true }), begun sdk i store db) :=
    alone_clear hrebuilding hopen
  unfold beginRebuild
  simp only [alone_bind, alone_ensureOpen hopen, aloneThen_ok, hstatus, alone_modify, hclear]

lemma contents_begun (hsha : CollisionFree env) (h : store.At env g) (ht : Placed env db.tables) :
    Placed env (begun sdk i store db).tables ∧
    (begun sdk i store db).tables.contents g = store.rebuilt g := by
  have haddress := h.address
  subst haddress
  have hmarked : Placed env (marked sdk i store "rebuilding" none db).tables :=
    placed_marked hsha h ht _ _
  refine ⟨placed_cleared hsha hmarked, (contents_cleared hsha hmarked).trans ?_⟩
  rw [contents_marked h ht]
  rfl

lemma ledger_after {st : Stmt} (hst : st.OnProjection) {r : st.Reply} {ws : List Write}
    (h : st.exec sdk db.tables = .ok (r, ws)) : SameLedger db (after sdk i st db) := by
  unfold SameLedger
  rw [tables_after sdk i h]
  exact ledger_applyAll_projecting (exec_projecting hst h)

lemma ledger_begun (h : store.At env g) (ht : Placed env db.tables) :
    SameLedger db (begun sdk i store db) := by
  have hstatus : SameLedger db (marked sdk i store "rebuilding" none db) :=
    ledger_after (.inr ⟨_, _, rfl⟩) (exec_mark sdk h ht "rebuilding" none)
  have hrelations : SameLedger (marked sdk i store "rebuilding" none db)
      (unlinked sdk i store.address (marked sdk i store "rebuilding" none db)) :=
    ledger_after (.inl trivial) rfl
  have hpatches : SameLedger (unlinked sdk i store.address (marked sdk i store "rebuilding" none db))
      (unpatched sdk i store.address (marked sdk i store "rebuilding" none db)) :=
    ledger_after (.inl trivial) rfl
  have hvertices : SameLedger
      (unpatched sdk i store.address (marked sdk i store "rebuilding" none db))
      (begun sdk i store db) := ledger_after (.inl trivial) rfl
  exact ((hstatus.trans hrelations).trans hpatches).trans hvertices

/-- Open stores of one run are the same while they rebuild. -/
lemma rebuilding_eq {store' : GraphStore} (h : store.At env g) (h' : store'.At env g)
    (hopen : store.closed = false) (hopen' : store'.closed = false) :
    { store with rebuildingHere := true } = { store' with rebuildingHere := true } := by
  have haddress : (store.scope, store.runId) = (store'.scope, store'.runId) :=
    h.address.trans h'.address.symm
  have hrecord : store.projectionRecord = store'.projectionRecord :=
    Except.ok.inj (h.record.symm.trans h'.record)
  obtain ⟨hscope, hrunId⟩ := Prod.mk.inj haddress
  cases store
  cases store'
  simp_all

end GraphStore

lemma alone_onGraph {α : Type} {m : Py GraphStore α} {stores : Stores} {db db' : Database}
    {r : Except PyErr α} {store : GraphStore}
    (h : alone sdk i m stores.graph db = ((r, store), db')) :
    alone sdk i (onGraph m) stores db = ((r, { stores with graph := store }), db') := by
  unfold alone at h ⊢
  unfold onGraph
  rw [Prog.run_bind, h]
  rfl

lemma alone_onEvents {α : Type} {m : Py EventStore α} {stores : Stores} {db db' : Database}
    {r : Except PyErr α} {store : EventStore}
    (h : alone sdk i m stores.events db = ((r, store), db')) :
    alone sdk i (onEvents m) stores db = ((r, { stores with events := store }), db') := by
  unfold alone at h ⊢
  unfold onEvents
  rw [Prog.run_bind, h]
  rfl

lemma projecting_finishReplay (runId : String) (events : List (Event F X)) :
    KeepsTo (Stmt.Projecting env g) (OnRun env g) false (finishReplay env lib runId events) := by
  unfold finishReplay
  refine KeepsTo.bind ((inside_project runId events).mono fun st hst => ?_) fun graph => ?_
  · exact ⟨hst.of, .inl hst.contents⟩
  · exact (keepsTo_onGraph GraphStore.projecting_markReady).bind fun _ => keepsTo_pure graph

lemma alone_replayGraph {db' : Database} {graph : lib.Graph} {stores' : Stores}
    (hrunId : stores.events.runId = stores.graph.runId)
    (hscope : stores.events.scope = stores.graph.scope)
    (h : alone sdk i (rebuild env lib) stores db = ((.ok graph, stores'), db')) :
    alone sdk i (replayGraph env lib) stores db = ((.ok graph, stores'), db') := by
  unfold replayGraph raiseIf
  simp only [hrunId, hscope, alone_bind, alone_get, aloneThen_ok, ne_eq, not_true_eq_false,
    if_false, alone_lift, alone_tryCatch, h, aloneElse_ok, alone_pure]

/-- A replay that returns has checked its stores and passed its guarded part. -/
lemma exec_replayGraph_ok {serve : Server Call Answer Database}
    {hist : List (CallRec Call Answer Database)} {graph : lib.Graph} {stores' : Stores}
    {db' : Database} (he : (replayGraph env lib stores).Exec serve db hist (.ok graph, stores') db') :
    stores.events.runId = stores.graph.runId ∧ stores.events.scope = stores.graph.scope ∧
    (rebuild env lib stores).Exec serve db hist (.ok graph, stores') db' := by
  have hcheck : ∀ {p : Prop} [Decidable p] {e : PyErr} {stores₁ : Stores} {db₁ : Database}
      {h₁ : List (CallRec Call Answer Database)},
      ((lift (raiseIf p e) : Py Stores Unit) stores).Exec serve db h₁ (.ok (), stores₁) db₁ →
      ¬ p ∧ stores₁ = stores ∧ db₁ = db ∧ h₁ = [] := by
    intro p _ e stores₁ db₁ h₁ hlift
    unfold raiseIf at hlift
    split at hlift
    · obtain ⟨-, hend, -⟩ := Prog.exec_done_iff.mp hlift
      cases hend
    · rename_i hp
      obtain ⟨hnil, hend, hdb⟩ := Prog.exec_done_iff.mp hlift
      exact ⟨hp, (Prod.mk.inj hend).2, hdb, hnil⟩
  have hafterGet : ((do
      lift (raiseIf (stores.events.runId ≠ stores.graph.runId)
        ⟨.valueError, "event and projection run_id values must match"⟩)
      lift (raiseIf (stores.events.scope ≠ stores.graph.scope)
        ⟨.valueError, "event and projection scope values must match"⟩)
      tryCatch (rebuild env lib) fun exc => do
        tryCatch (onGraph (GraphStore.markFailed (some (.inl exc)))) fun _ => pure ()
        throw exc : Py Stores lib.Graph) stores).Exec serve db hist (.ok graph, stores') db' := he
  obtain ⟨⟨⟩, stores₁, db₁, h₁, h₂, hfirst, hrest, rfl⟩ := Method.exec_bind_ok hafterGet
  obtain ⟨hrunId, rfl, rfl, rfl⟩ := hcheck hfirst
  obtain ⟨⟨⟩, stores₂, db₂, h₃, h₄, hsecond, hguarded, rfl⟩ := Method.exec_bind_ok hrest
  obtain ⟨hscope, rfl, rfl, rfl⟩ := hcheck hsecond
  refine ⟨not_not.mp hrunId, not_not.mp hscope, Method.exec_tryCatch_ok ?_ hguarded⟩
  intro exc stores₃ db₃ h₃ hraised
  obtain ⟨u, stores₄, db₄, h₅, h₆, -, hthrow, -⟩ := Method.exec_bind_ok hraised
  obtain ⟨-, hend, -⟩ := Prog.exec_done_iff.mp hthrow
  cases hend

/-- A guarded part that returns has cleared the projection and read the log. -/
lemma exec_rebuild_ok (hsha : CollisionFree env) (hφ : ¬ φ.lostAnswer)
    (hstores : OnRun env g stores) (ht : Placed env db.tables)
    {hist : List (CallRec Call Answer Database)} {graph : lib.Graph} {stores' : Stores}
    {db' : Database} (he : (rebuild env lib stores).Exec
      (amid (Undisturbed env g i) ((engine sdk).serve φ i)) db hist (.ok graph, stores') db') :
    stores.graph.closed = false ∧ ∃ events h₁ h₂ h₃ db₁ db₂, hist = h₁ ++ h₂ ++ h₃ ∧
      (EventStore.iterEvents env none none stores.events).Exec
        (amid (Undisturbed env g i) ((engine sdk).serve φ i)) db₁ h₂ (.ok events, stores.events)
          db₂ ∧
      Placed env db₂.tables ∧ db₂.tables.contents g = stores.graph.rebuilt g ∧
      (finishReplay env lib stores.events.runId events
        ⟨stores.events, { stores.graph with rebuildingHere := true }⟩).Exec
        (amid (Undisturbed env g i) ((engine sdk).serve φ i)) db₂ h₃ (.ok graph, stores') db' := by
  rw [rebuild_eq] at he
  obtain ⟨⟨⟩, stores₁, db₁, h₁, hlater, hbegin, hrest, rfl⟩ := Method.exec_bind_ok he
  obtain ⟨⟨r, store⟩, db₁', h₁', hnone, hbegun, hend, rfl⟩ := Prog.exec_bind_iff.mp hbegin
  obtain ⟨rfl, hx, rfl⟩ := Prog.exec_done_iff.mp hend
  obtain ⟨hr, rfl⟩ := Prod.mk.inj hx
  have hbegins := Prog.always_iff.mp (GraphStore.always_beginRebuild hsha hφ hstores.2 ht) _ _ _
    hbegun
  obtain ⟨ht₁, ⟨⟨e, he⟩, -⟩ | ⟨-, hstore, hopen, hcontents⟩⟩ := hbegins
  · rw [← hr] at he
    cases he
  obtain rfl : store = _ := hstore
  obtain ⟨events, stores₂, db₂, h₂, h₃, hread, hfinish, rfl⟩ := Method.exec_bind_ok hrest
  obtain ⟨hothers, hsame⟩ := Prog.always_iff.mp (always_readEvents _ _) _ _ _ hread
  obtain rfl : stores₂ = _ := hsame
  obtain ⟨⟨r, store⟩, db₂', h₂', hnone, hiter, hend, rfl⟩ := Prog.exec_bind_iff.mp hread
  obtain ⟨rfl, hx, rfl⟩ := Prog.exec_done_iff.mp hend
  obtain ⟨rfl, hstore⟩ := Prod.mk.inj hx
  obtain rfl : stores.events = store := congrArg Stores.events hstore
  refine ⟨hopen, events, h₁', h₂', h₃, db₁, db₂, by simp, hiter, hothers.inv ht₁, ?_, hfinish⟩
  exact hothers.same.trans hcontents

/-- Alone, a guarded part whose event store can read the log goes on from a cleared projection. -/
lemma alone_rebuild (hgraph : stores.graph.At env g) (hopen : stores.graph.closed = false)
    (ht : Placed env db.tables) {events : List (Event F X)}
    (hread : (alone sdk i (EventStore.iterEvents env none none) stores.events db).1 =
      (.ok events, stores.events)) :
    alone sdk i (rebuild env lib) stores db =
      alone sdk i (finishReplay env lib stores.events.runId events)
        ⟨stores.events, { stores.graph with rebuildingHere := true }⟩
        (GraphStore.begun sdk i stores.graph db) := by
  have hledger : SameLedger db (GraphStore.begun sdk i stores.graph db) :=
    GraphStore.ledger_begun hgraph ht
  have hiter : alone sdk i (EventStore.iterEvents env none none) stores.events
      (GraphStore.begun sdk i stores.graph db) =
      ((.ok events, stores.events), GraphStore.begun sdk i stores.graph db) :=
    alone_sameLog (EventStore.makes_iterEvents none none) hledger.1.symm hledger.2.symm hread
  have hbegin : alone sdk i (onGraph GraphStore.beginRebuild) stores db =
      ((.ok (), ⟨stores.events, { stores.graph with rebuildingHere := true }⟩),
        GraphStore.begun sdk i stores.graph db) :=
    alone_onGraph (GraphStore.alone_beginRebuild hgraph hopen ht)
  have hevents : alone sdk i (onEvents (EventStore.iterEvents env none none))
      ⟨stores.events, { stores.graph with rebuildingHere := true }⟩
      (GraphStore.begun sdk i stores.graph db) =
      ((.ok events, ⟨stores.events, { stores.graph with rebuildingHere := true }⟩),
        GraphStore.begun sdk i stores.graph db) := alone_onEvents hiter
  have hrebuild : alone sdk i (rebuild env lib) stores db = alone sdk i (do
      onGraph GraphStore.beginRebuild
      let events ← onEvents (EventStore.iterEvents env none none)
      finishReplay env lib stores.events.runId events) stores db := by
    unfold alone
    rw [rebuild_eq]
  rw [hrebuild, alone_bind, hbegin, aloneThen_ok, alone_bind, hevents, aloneThen_ok]

variable (env sdk g) in
/-- The same replay into any projection of the run that can be opened returns the same graph
and ends with a projection that every reader sees the same. -/
def SameReplay (lib : Framework F X) (i : Nat) (events : List (Event F X)) (store : EventStore)
    (graph : lib.Graph) (db' : Database) : Prop :=
  ∀ db₀ graphStore, Placed env db₀.tables → graphStore.At env g → graphStore.closed = false →
    (alone sdk i (EventStore.iterEvents env none none) store db₀).1 = (.ok events, store) →
    ∃ stores₀ db₁, alone sdk i (replayGraph env lib) ⟨store, graphStore⟩ db₀ =
      ((.ok graph, stores₀), db₁) ∧ SameReads env sdk g db₁ db'

/-- A replay that returns has put its events into a projection as into any other. -/
theorem sameReplay_of_exec (hsha : CollisionFree env) (hstores : OnRun env g stores)
    (ht : Placed env db.tables) {hist : List (CallRec Call Answer Database)} {graph : lib.Graph}
    {stores' : Stores} {db' : Database} (he : (replayGraph env lib stores).Exec
      (amid (Undisturbed env g i) ((engine sdk).serve (faults False False) i)) db hist
        (.ok graph, stores') db') :
    ∃ events h₁ h₂ h₃ db₁ db₂, hist = h₁ ++ h₂ ++ h₃ ∧
      (EventStore.iterEvents env none none stores.events).Exec
        (amid (Undisturbed env g i) ((engine sdk).serve (faults False False) i)) db₁ h₂
          (.ok events, stores.events) db₂ ∧
      SameReplay env g sdk lib i events stores.events graph db' := by
  obtain ⟨hrunId, hscope, hguarded⟩ := exec_replayGraph_ok he
  obtain ⟨hopen, events, h₁, h₂, h₃, db₁, db₂, hhist, hread, ht₂, hcontents, hfinish⟩ :=
    exec_rebuild_ok hsha id hstores ht hguarded
  refine ⟨events, h₁, h₂, h₃, db₁, db₂, hhist, hread, ?_⟩
  intro db₀ graphStore ht₀ hgraph₀ hopen₀ hread₀
  have hsame : { graphStore with rebuildingHere := true } =
      { stores.graph with rebuildingHere := true } :=
    GraphStore.rebuilding_eq hgraph₀ hstores.2 hopen₀ hopen
  have hbegun : Placed env (GraphStore.begun sdk i graphStore db₀).tables ∧
      (GraphStore.begun sdk i graphStore db₀).tables.contents g = graphStore.rebuilt g :=
    GraphStore.contents_begun hsha hgraph₀ ht₀
  have hrecord : graphStore.projectionRecord = stores.graph.projectionRecord :=
    Except.ok.inj (hgraph₀.record.symm.trans hstores.2.record)
  have hrebuilt : graphStore.rebuilt g = stores.graph.rebuilt g := by
    unfold GraphStore.rebuilt
    rw [hrecord]
  -- from the cleared projections on, the two replays cannot be told apart
  have halike : Alike (Placed env) (Write.Projecting env g) (OwnRecord env g)
      (Tables.contents · g) i false db₂ (GraphStore.begun sdk i graphStore db₀) :=
    ⟨ht₂, hbegun.1, hcontents.trans (hrebuilt.symm.trans hbegun.2.symm), nofun⟩
  have hconfined : Confined (Stmt.Projecting env g) _ false
      (finishReplay env lib stores.events.runId events
        ⟨stores.events, { stores.graph with rebuildingHere := true }⟩) :=
    projecting_finishReplay stores.events.runId events _ false
      ⟨trivial, hstores.2.address, hstores.2.record⟩ nofun
  obtain ⟨hresult, b, -, hend⟩ := hconfined.sim_amid (local_contents hsha sdk g) id id halike hfinish
  have hscope₀ : (stores.graph.scope, stores.graph.runId) = (graphStore.scope, graphStore.runId) :=
    hstores.2.address.trans hgraph₀.address.symm
  obtain ⟨hscope', hrunId'⟩ := Prod.mk.inj hscope₀
  have hrebuild : alone sdk i (rebuild env lib) ⟨stores.events, graphStore⟩ db₀ =
      alone sdk i (finishReplay env lib stores.events.runId events)
        ⟨stores.events, { stores.graph with rebuildingHere := true }⟩
        (GraphStore.begun sdk i graphStore db₀) := by
    rw [← hsame]
    exact alone_rebuild hgraph₀ hopen₀ ht₀ hread₀
  refine ⟨stores', (alone sdk i (rebuild env lib) ⟨stores.events, graphStore⟩ db₀).2,
    alone_replayGraph (hrunId.trans hrunId') (hscope.trans hscope') ?_, ?_⟩
  · rw [hrebuild, hresult]
    rfl
  · rw [hrebuild]
    exact sameReads_of_visible hsha hend.inv' hend.inv
      (congrArg Contents.visible hend.same.symm)

/-- With no other user of the projection, a replay that raises leaves the entities or a
projection that is not ready. One that returns leaves a ready projection, and unless calls are
lost, the one that the same replay makes of any other. -/
theorem replay_restores (hsha : CollisionFree env) (hstores : OnRun env g stores)
    (ht : Placed env db.tables) :
    (∀ hist x stores' db', (replayGraph env lib stores).Exec
      (amid (Undisturbed env g i) ((engine sdk).serve (faults True False) i)) db hist
        (x, stores') db' →
      ((∃ e, x = .error e) → (db'.tables.contents g).entities = (db.tables.contents g).entities ∨
        db'.tables.statusOf stores.graph.projectionRecord ≠ some "ready") ∧
      ((∃ graph, x = .ok graph) →
        db'.tables.statusOf stores.graph.projectionRecord = some "ready")) ∧
    ∀ hist graph stores' db', (replayGraph env lib stores).Exec
      (amid (Undisturbed env g i) ((engine sdk).serve (faults False False) i)) db hist
        (.ok graph, stores') db' →
      ∃ events h₁ h₂ h₃ db₁ db₂, hist = h₁ ++ h₂ ++ h₃ ∧
        (EventStore.iterEvents env none none stores.events).Exec
          (amid (Undisturbed env g i) ((engine sdk).serve (faults False False) i)) db₁ h₂
            (.ok events, stores.events) db₂ ∧
        SameReplay env g sdk lib i events stores.events graph db' := by
  refine ⟨fun hist x stores' db' he => ?_, fun hist graph stores' db' he =>
    sameReplay_of_exec hsha hstores ht he⟩
  have hends := Prog.always_iff.mp (always_replayGraph hsha id hstores ht) hist _ db' he
  have hstatus : ∀ {t : Tables}, Placed env t → t.statusOf stores.graph.projectionRecord =
      (t.contents g).status stores.graph.projectionRecord :=
    fun ht => statusOf_contents hsha ht hstores.2.record
  rcases hends with ⟨⟨e, hx⟩, ht', hclosed⟩ | ⟨⟨graph, hx⟩, ht', hready⟩
  · obtain rfl : x = .error e := hx
    rw [hstatus ht']
    exact ⟨fun _ => hclosed, nofun⟩
  · obtain rfl : x = .ok graph := hx
    rw [hstatus ht']
    exact ⟨nofun, fun _ => hready⟩

/-! ### A replay of one event -/

/-- Both stores of a run are opened, and an event is appended. -/
def loggedRun : ProviderOrders :=
  [.start 0 (.events (.open_ "r" "s" "now")), .finish 0, .start 0 (.graph (.open_ "r" "s")),
    .finish 0, .start 0 (.events (.append (referenceEvent "a"))), .finish 0]

def loggedDatabase : Database := (provided loggedRun).2.shared

def loggedStores : Stores := ⟨referenceStore ("s", "r"), referenceGraph ("s", "r")⟩

lemma sound_logged : Sound (reference Unit) loggedDatabase.tables := by
  unfold loggedDatabase
  exact (provides_sound reference_collisionFree (provides_provided loggedRun)).1

/-- The replay of the run that nobody disturbs. -/
def loneReplay : (Except PyErr referenceFramework.Graph × Stores) × Database :=
  alone referenceSdk 0 (replayGraph (reference Unit) referenceFramework) loggedStores loggedDatabase

lemma loneReplay_returns :
    (loggedDatabase.tables.eventRows "s" "r").length = 1 ∧ loneReplay.1.1.isOk = true := by
  decide +kernel

lemma exec_loneReplay :
    (replayGraph (reference Unit) referenceFramework loggedStores).Exec
      (amid (Undisturbed (reference Unit) ("s", "r") 0)
        ((engine referenceSdk).serve (faults False False) 0)) loggedDatabase
      ((replayGraph (reference Unit) referenceFramework loggedStores).history
        ((engine referenceSdk).perform 0) loggedDatabase) loneReplay.1 loneReplay.2 :=
  (Prog.exec_run (fun _ _ => .inl rfl) _ loggedDatabase).amid (Apart.refl 0)

theorem replay_restores_logged :
    (loggedDatabase.tables.eventRows "s" "r").length = 1 ∧
    (∀ hist x stores' db', (replayGraph (reference Unit) referenceFramework loggedStores).Exec
      (amid (Undisturbed (reference Unit) ("s", "r") 0)
        ((engine referenceSdk).serve (faults True False) 0)) loggedDatabase hist (x, stores') db' →
      ((∃ e, x = .error e) → (db'.tables.contents ("s", "r")).entities =
          (loggedDatabase.tables.contents ("s", "r")).entities ∨
        db'.tables.statusOf loggedStores.graph.projectionRecord ≠ some "ready") ∧
      ((∃ graph, x = .ok graph) →
        db'.tables.statusOf loggedStores.graph.projectionRecord = some "ready")) ∧
    ∃ hist graph stores' db', (replayGraph (reference Unit) referenceFramework loggedStores).Exec
        (amid (Undisturbed (reference Unit) ("s", "r") 0)
          ((engine referenceSdk).serve (faults False False) 0)) loggedDatabase hist
          (.ok graph, stores') db' ∧
      ∃ events h₁ h₂ h₃ db₁ db₂, hist = h₁ ++ h₂ ++ h₃ ∧
        (EventStore.iterEvents (reference Unit) none none loggedStores.events).Exec
          (amid (Undisturbed (reference Unit) ("s", "r") 0)
            ((engine referenceSdk).serve (faults False False) 0)) db₁ h₂
            (.ok events, loggedStores.events) db₂ ∧
        SameReplay (reference Unit) ("s", "r") referenceSdk referenceFramework 0 events
          loggedStores.events graph db' := by
  have hstores : OnRun (reference Unit) ("s", "r") loggedStores := ⟨trivial, rfl, rfl⟩
  obtain ⟨hrows, hok⟩ := loneReplay_returns
  have hexec := exec_loneReplay
  generalize loneReplay = result at hok hexec
  obtain ⟨⟨_ | graph, stores'⟩, db'⟩ := result
  · cases hok
  · exact ⟨hrows, (replay_restores reference_collisionFree hstores sound_logged.toPlaced).1, _, graph,
      stores', db', hexec,
      (replay_restores reference_collisionFree hstores sound_logged.toPlaced).2 _ _ _ _ hexec⟩

end ActiveGraphSurreal
