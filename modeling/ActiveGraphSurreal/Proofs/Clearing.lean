import ActiveGraphSurreal.Library.Atomic
import ActiveGraphSurreal.Proofs.Neighborhood
import ActiveGraphSurreal.Proofs.Visible

/-!
# Mutations and their failures

A mutation of the graph writes once, at its end, or commits one transaction; a failure on
the way leaves the projection as it was. `clear` is the exception: its three deletes take
effect one by one.
-/

namespace ActiveGraphSurreal

open Library

set_option linter.unusedSectionVars false

variable {F X : Type} [Json.ScalarText F] {env : Env F X} {sdk : Sdk} {g : String × String}
  {t : Tables} {i : Nat}

/-! ### Deleting the rows of a run -/

lemma applyAll_relation (keys : List String) (t : Tables) :
    (engine sdk).applyAll (keys.map (.relation · none)) t =
      { t with relation := t.relation.eraseAll keys } := by
  induction keys generalizing t with
  | nil => rfl
  | cons key keys ih => exact ih _

lemma applyAll_patch (keys : List String) (t : Tables) :
    (engine sdk).applyAll (keys.map (.patch · none)) t =
      { t with patch := t.patch.eraseAll keys } := by
  induction keys generalizing t with
  | nil => rfl
  | cons key keys ih => exact ih _

lemma applyAll_vertex (keys : List String) (t : Tables) :
    (engine sdk).applyAll (keys.map (.vertex · none)) t =
      { t with vertex := t.vertex.eraseAll keys } := by
  induction keys generalizing t with
  | nil => rfl
  | cons key keys ih => exact ih _

/-- The rows of a run in a table. -/
abbrev ownRows {R : Type} (g : String × String) (scope runId : R → String) (row : R) : Bool :=
  scope row = g.1 && runId row = g.2

variable (g t) in
lemma part_deleteRelations : ((engine sdk).applyAll ((t.relation.keysWhere
    (ownRows g RelationRow.scope RelationRow.runId)).map (.relation · none)) t).part g =
      { t.part g with relation := [] } := by
  rw [applyAll_relation]
  unfold Tables.part
  simp only
  rw [Records.owned_eraseAll_keysWhere]

variable (g t) in
lemma part_deletePatches : ((engine sdk).applyAll ((t.patch.keysWhere
    (ownRows g PatchRow.scope PatchRow.runId)).map (.patch · none)) t).part g =
      { t.part g with patch := [] } := by
  rw [applyAll_patch]
  unfold Tables.part
  simp only
  rw [Records.owned_eraseAll_keysWhere]

/-- Once the edges of a run are gone, its vertices are deleted without touching others. -/
lemma part_deleteVertices (hsha : CollisionFree env) (ht : Placed env t)
    (hrelation : (t.part g).relation = []) :
    ((engine sdk).applyAll (deleteVertices t g.1 g.2) t).part g = { t.part g with vertex := [] } := by
  have hwrites : deleteVertices t g.1 g.2 =
      (t.vertex.keysWhere (ownRows g VertexRow.scope VertexRow.runId)).map (.vertex · none) := by
    rw [deleteVertices_part hsha ht, hrelation]
    rfl
  rw [hwrites, applyAll_vertex]
  unfold Tables.part
  simp only
  rw [Records.owned_eraseAll_keysWhere]

namespace GraphStore

/-! ### The three deletes -/

/-- The database after a statement. -/
def after (sdk : Sdk) (i : Nat) (st : Stmt) (db : Database) : Database :=
  ((engine sdk).perform i (.query st) db).2

variable (sdk i) in
lemma tables_after {st : Stmt} {db : Database} {r : st.Reply} {ws : List Write}
    (h : st.exec sdk db.tables = .ok (r, ws)) :
    (after sdk i st db).tables = (engine sdk).applyAll ws db.tables := by
  unfold after
  simp only [Engine.perform, engine, h]
  cases ws with
  | nil => rfl
  | cons w ws => rfl

lemma placed_after (hsha : CollisionFree env) {db : Database} (ht : Placed env db.tables)
    {st : Stmt} {r : st.Reply} {ws : List Write} (hof : st.Of env g)
    (h : st.exec sdk db.tables = .ok (r, ws)) : Placed env (after sdk i st db).tables := by
  rw [tables_after sdk i h]
  exact placed_applyAll ht (exec_within hsha ht hof h)

variable {db : Database}

lemma part_after_relations : (after sdk i (.deleteRelations g.1 g.2) db).tables.part g =
    { db.tables.part g with relation := [] } := by
  rw [tables_after sdk i rfl]
  exact part_deleteRelations g db.tables

lemma part_after_patches : (after sdk i (.deletePatches g.1 g.2) db).tables.part g =
    { db.tables.part g with patch := [] } := by
  rw [tables_after sdk i rfl]
  exact part_deletePatches g db.tables

lemma part_after_vertices (hsha : CollisionFree env) (ht : Placed env db.tables)
    (hrelation : (db.tables.part g).relation = []) :
    (after sdk i (.deleteVertices g.1 g.2) db).tables.part g =
      { db.tables.part g with vertex := [] } := by
  rw [tables_after sdk i rfl]
  exact part_deleteVertices hsha ht hrelation

/-- The databases on the way of `clear`. -/
def unlinked (sdk : Sdk) (i : Nat) (g : String × String) (db : Database) : Database :=
  after sdk i (.deleteRelations g.1 g.2) db

def unpatched (sdk : Sdk) (i : Nat) (g : String × String) (db : Database) : Database :=
  after sdk i (.deletePatches g.1 g.2) (unlinked sdk i g db)

def cleared (sdk : Sdk) (i : Nat) (g : String × String) (db : Database) : Database :=
  after sdk i (.deleteVertices g.1 g.2) (unpatched sdk i g db)

lemma part_unlinked : (unlinked sdk i g db).tables.part g =
    { db.tables.part g with relation := [] } := part_after_relations

lemma part_unpatched : (unpatched sdk i g db).tables.part g =
    { db.tables.part g with relation := [], patch := [] } := by
  unfold unpatched
  rw [part_after_patches, part_unlinked]

lemma placed_unlinked (hsha : CollisionFree env) (ht : Placed env db.tables) :
    Placed env (unlinked sdk i g db).tables := placed_after hsha ht (g := g) rfl rfl

lemma placed_unpatched (hsha : CollisionFree env) (ht : Placed env db.tables) :
    Placed env (unpatched sdk i g db).tables :=
  placed_after hsha (placed_unlinked hsha ht) (g := g) rfl rfl

lemma placed_cleared (hsha : CollisionFree env) (ht : Placed env db.tables) :
    Placed env (cleared sdk i g db).tables :=
  placed_after hsha (placed_unpatched hsha ht) (g := g) rfl rfl

/-- Nothing but the status and the ledger is left of a cleared run. -/
theorem part_cleared (hsha : CollisionFree env) (ht : Placed env db.tables) :
    (cleared sdk i g db).tables.part g =
      { db.tables.part g with vertex := [], relation := [], patch := [] } := by
  have hrelation : ((unpatched sdk i g db).tables.part g).relation = [] := by rw [part_unpatched]
  unfold cleared
  rw [part_after_vertices hsha (placed_unpatched hsha ht) hrelation, part_unpatched]

lemma alone_after {ℓ : Type} (l : ℓ) {st : Stmt} {r : st.Reply} {ws : List Write}
    (h : st.exec sdk db.tables = .ok (r, ws)) :
    alone sdk i (query st) l db = ((.ok r, l), after sdk i st db) := by
  have hanswer : ((engine sdk).perform i (.query st) db).1 = .ok r := by
    simp only [Engine.perform, engine, h]
  rw [alone_query, hanswer]
  rfl

/-- A run of `clear` that nobody disturbs. -/
lemma alone_clear {store : GraphStore} (h : store.At env g) (hopen : store.closed = false) :
    alone sdk i clear store db = ((.ok (), store), cleared sdk i g db) := by
  have haddress := h.address
  subst haddress
  unfold clear
  rw [alone_bind, alone_get, aloneThen_ok, alone_bind, alone_ensureOpen hopen, aloneThen_ok,
    alone_bind, alone_after store rfl, aloneThen_ok, alone_bind, alone_after store rfl, aloneThen_ok,
    alone_after store rfl]
  rfl

/-- A statement that can be lost: the code goes on with nothing done, or after it. -/
lemma always_write {α : Type} {Q : α → Database → Prop} {st : Stmt} {r : st.Reply}
    {ws : List Write} (h : st.exec sdk db.tables = .ok (r, ws))
    {k : Except PyErr st.Reply → Prog Call Answer α}
    (hlost : ∀ e, (k (.error e)).Always ((engine sdk).serve (faults True False) i) Q db)
    (hok : (k (.ok r)).Always ((engine sdk).serve (faults True False) i) Q (after sdk i st db)) :
    (Prog.call (.query st) k).Always ((engine sdk).serve (faults True False) i) Q db := by
  have hperform : (engine sdk).perform i (.query st) db = (.ok r, after sdk i st db) := by
    refine Prod.ext ?_ rfl
    simp only [Engine.perform, engine, h]
  rintro r' db' (hs | ⟨e, -, rfl, ⟨-, rfl⟩ | ⟨hanswer, -⟩⟩)
  · rw [hperform] at hs
    obtain ⟨rfl, rfl⟩ := Prod.mk.inj hs
    exact hok
  · exact hlost e
  · exact hanswer.elim

lemma ensureOpen_eq {store : GraphStore} (hopen : store.closed = false) :
    ensureOpen store = .done (.ok (), store) := by
  unfold ensureOpen
  change lift (raiseIf (store.closed = true) _) store = _
  rw [hopen]
  rfl

lemma clear_eq {store : GraphStore} (hopen : store.closed = false) : clear store = (do
    query (.deleteRelations store.scope store.runId)
    query (.deletePatches store.scope store.runId)
    query (.deleteVertices store.scope store.runId) : Py GraphStore Unit) store := by
  change (ensureOpen store).bind _ = _
  rw [ensureOpen_eq hopen]
  rfl

/-- A failing run of `clear` ends before its first, second or third delete. -/
lemma always_clear {store : GraphStore} (h : store.At env g) (hopen : store.closed = false) :
    (clear store).Always ((engine sdk).serve (faults True False) i) (fun x db' =>
      ∀ e, x.1 = .error e → db' = db ∨ db' = unlinked sdk i g db ∨ db' = unpatched sdk i g db)
      db := by
  have haddress := h.address
  subst haddress
  rw [clear_eq hopen]
  refine always_write rfl (fun e => ?_) (always_write rfl (fun e => ?_)
    (always_write rfl (fun e => ?_) nofun))
  · exact fun _ _ => .inl rfl
  · exact fun _ _ => .inr (.inl rfl)
  · exact fun _ _ => .inr (.inr rfl)

def lostConnection : PyErr := ⟨.other "ConnectionError", "connection lost"⟩

lemma exec_lost {α : Type} {st : Stmt} {k : Except PyErr st.Reply → Prog Call Answer α}
    {hist : List (CallRec Call Answer Database)} {a : α} {db' : Database}
    (hk : (k (.error lostConnection)).Exec ((engine sdk).serve (faults True False) i) db hist a db') :
    ∃ hist, (Prog.call (.query st) k).Exec ((engine sdk).serve (faults True False) i) db hist a db' :=
  ⟨_, .call (.inr ⟨lostConnection, trivial, rfl, .inl ⟨trivial, rfl⟩⟩) hk⟩

lemma exec_write {α : Type} {st : Stmt} {r : st.Reply} {ws : List Write}
    (h : st.exec sdk db.tables = .ok (r, ws)) {k : Except PyErr st.Reply → Prog Call Answer α}
    {a : α} {db' : Database} (hk : ∃ hist,
      (k (.ok r)).Exec ((engine sdk).serve (faults True False) i) (after sdk i st db) hist a db') :
    ∃ hist, (Prog.call (.query st) k).Exec ((engine sdk).serve (faults True False) i) db hist a db' := by
  obtain ⟨hist, hk⟩ := hk
  refine ⟨_, .call (.inl ?_) hk⟩
  refine Prod.ext ?_ rfl
  simp only [Engine.perform, engine, h]

variable (sdk i db) in
/-- `clear` can fail after its first delete and after its second one. -/
lemma clear_fails {store : GraphStore} (h : store.At env g) (hopen : store.closed = false) :
    (∃ hist, (clear store).Exec ((engine sdk).serve (faults True False) i) db hist
      (.error lostConnection, store) (unlinked sdk i g db)) ∧
    ∃ hist, (clear store).Exec ((engine sdk).serve (faults True False) i) db hist
      (.error lostConnection, store) (unpatched sdk i g db) := by
  have haddress := h.address
  subst haddress
  rw [clear_eq hopen]
  constructor
  · exact exec_write rfl (exec_lost (.done _ _))
  · exact exec_write rfl (exec_write rfl (exec_lost (.done _ _)))

/-! ### The other mutations -/

section mutations

variable (sdk i) in
/-- The method changes nothing, even when calls of it are lost. -/
abbrev Quiet {α : Type} (m : Py GraphStore α) : Prop := Still (engine sdk) (faults True False) i m

variable (sdk i) in
/-- The method changes nothing when it raises. -/
abbrev Atomic {α : Type} (m : Py GraphStore α) : Prop := Clean (engine sdk) (faults True False) i m

lemma quiet_read {st : Stmt} (h : (engine sdk).Reads st) : Quiet sdk i (query st) :=
  still_call (k := id) fun db => by rw [perform_reads h]

lemma quiet_txQuery (st : Stmt) : Quiet sdk i (txQuery st) :=
  still_call (k := id) (perform_txQuery_tables st)

lemma answered : ¬ (faults True False).lostAnswer := id

lemma atomic_query (st : Stmt) : Atomic sdk i (query st : Py GraphStore st.Reply) :=
  clean_call (c := .query st) (k := id) answered fun _ _ h => perform_query_error h

lemma atomic_commit : Atomic sdk i (commit : Py GraphStore Unit) :=
  clean_call (c := .commit) (k := id) answered fun _ _ h => perform_commit_error h

lemma quiet_assertScopedRow (scope runId : String) (logical : Option (String × String)) :
    Quiet sdk i (assertScopedRow scope runId logical) :=
  Still.get fun _ => (still_lift _).bind fun _ => still_lift _

lemma quiet_assertWritable : Quiet sdk i assertWritable := by
  have hopen : Quiet sdk i ensureOpen := Still.get fun _ => still_lift _
  have hrow : Quiet sdk i projectionRow := by
    unfold projectionRow
    refine Still.get fun self => (quiet_read (reads_select fun t => ⟨_, rfl⟩)).bind fun row => ?_
    cases row with
    | none => exact still_pure _
    | some row => exact (quiet_assertScopedRow _ _ _).bind fun _ => still_pure _
  have hstatus : Quiet sdk i projectionStatus := by
    unfold projectionStatus
    refine hopen.bind fun _ => hrow.bind fun row => ?_
    cases row with
    | none => exact still_throw _
    | some row => exact still_pure _
  unfold assertWritable assertReadable
  exact Still.get fun _ => hopen.bind fun _ => hstatus.bind fun _ => still_lift _

lemma quiet_key {table : Table} (id : String) : Quiet sdk i (do
    let self ← get
    lift (recordId env.sha256 table [self.scope, self.runId, id])) :=
  Still.get fun _ => still_lift _

lemma quiet_placeholderContent (id : String) : Quiet sdk i (placeholderContent id) := by
  unfold placeholderContent
  exact Still.get fun self => (still_lift _).bind fun seq => still_pure _

lemma quiet_ensurePlaceholder (vertex : RecordId .agVertex) (id : String) :
    Quiet sdk i (ensurePlaceholderInTransaction vertex id) := by
  unfold ensurePlaceholderInTransaction
  refine (quiet_txQuery _).bind fun row => ?_
  cases row with
  | none => exact (quiet_placeholderContent id).bind fun content => quiet_txQuery _
  | some row => exact quiet_assertScopedRow _ _ _

lemma atomic_putObject (obj : Object F X) : Atomic sdk i (putObject env obj) := by
  unfold putObject
  refine quiet_assertWritable.then fun _ => Clean.get fun self => ?_
  refine (still_lift _).then fun seq => (still_lift _).then fun record => ?_
  exact (quiet_key obj.id).then fun vertex => atomic_query _

lemma atomic_removeObject (id : String) : Atomic sdk i (removeObject env id) := by
  unfold removeObject
  refine quiet_assertWritable.then fun _ => (quiet_key id).then fun vertex => ?_
  refine (quiet_read (reads_select fun t => ⟨_, rfl⟩)).then fun row => ?_
  cases row with
  | none => exact (still_pure _).clean
  | some row =>
    refine (quiet_assertScopedRow _ _ _).then fun _ => ?_
    exact (quiet_placeholderContent id).then fun content => atomic_query _

lemma atomic_putRelation (rel : Relation F X) : Atomic sdk i (putRelation env rel) := by
  have htransaction : ∀ source target relation,
      Atomic sdk i (relationTransaction env rel source target relation) := by
    intro source target relation
    unfold relationTransaction
    refine Clean.get fun self => (quiet_ensurePlaceholder _ _).then fun _ => ?_
    refine (quiet_ensurePlaceholder _ _).then fun _ => (quiet_txQuery _).then fun _ => ?_
    exact (still_lift _).then fun record => (quiet_txQuery _).then fun _ => atomic_commit
  have hbegin : Quiet sdk i beginTransaction := still_call (k := id) fun _ => rfl
  have hcancel : Quiet sdk i cancelSafely := still_call (k := fun _ => .ok ()) fun _ => rfl
  unfold putRelation
  refine quiet_assertWritable.then fun _ => (quiet_key _).then fun source => ?_
  refine (quiet_key _).then fun target => (quiet_key _).then fun relation => hbegin.then fun _ => ?_
  exact (htransaction source target relation).tryCatch fun e => hcancel.bind fun _ => still_throw e

lemma atomic_removeRelation (id : String) : Atomic sdk i (removeRelation env id) := by
  unfold removeRelation
  exact quiet_assertWritable.then fun _ => (quiet_key id).then fun relation => atomic_query _

lemma atomic_putPatch (patch : Patch F X) : Atomic sdk i (putPatch env patch) := by
  unfold putPatch
  refine quiet_assertWritable.then fun _ => Clean.get fun self => (quiet_key _).then fun record => ?_
  exact (still_lift _).then fun content => atomic_query _

lemma atomic_removePatch (id : String) : Atomic sdk i (removePatch env id) := by
  unfold removePatch
  exact quiet_assertWritable.then fun _ => (quiet_key id).then fun record => atomic_query _

end mutations

end GraphStore

/-- Every call but `clear` that raises has changed nothing. -/
theorem atomic_code {c : GraphCall F X} (hwrites : ¬ c.Reads) (hclear : c ≠ .clear) :
    GraphStore.Atomic sdk i (c.code env) := by
  cases c with
  | putObject obj => exact GraphStore.atomic_putObject obj
  | removeObject id => exact GraphStore.atomic_removeObject id
  | putRelation rel => exact GraphStore.atomic_putRelation rel
  | removeRelation id => exact GraphStore.atomic_removeRelation id
  | putPatch patch => exact GraphStore.atomic_putPatch patch
  | removePatch id => exact GraphStore.atomic_removePatch id
  | clear => exact absurd rfl hclear
  | _ => exact absurd trivial hwrites

/-! ### Between the two states -/

/-- At most one of the kinds of entities of the run has any. -/
def Tables.OneKind (t : Tables) (g : String × String) : Prop :=
  (t.objectRows g.1 g.2 = [] ∧ t.relationRows g.1 g.2 = []) ∨
  (t.objectRows g.1 g.2 = [] ∧ t.patchRows g.1 g.2 = []) ∨
  (t.relationRows g.1 g.2 = [] ∧ t.patchRows g.1 g.2 = [])

lemma mapM_eq_nil {R A : Type} {f : R → Except PyErr A} {rows : List R} :
    rows.mapM f = .ok [] ↔ rows = [] := by
  cases rows with
  | nil => simp [pure, Except.pure]
  | cons row rows =>
    rw [List.mapM_cons]
    cases f row with
    | error e => simp [bind, Except.bind]
    | ok a =>
      cases rows.mapM f with
      | error e => simp [bind, Except.bind]
      | ok as => simp [bind, Except.bind, pure, Except.pure]

lemma sorted_eq_nil {R : Type} {r : R → R → Prop} [DecidableRel r] {rows : List R} :
    rows.insertionSort r = [] ↔ rows = [] := by
  rw [← List.length_eq_zero_iff, List.length_insertionSort, List.length_eq_zero_iff]

namespace GraphStore

variable {db : Database} {store : GraphStore}

lemma Readable.transfer (hsha : CollisionFree env) {t t' : Tables} (ht : Placed env t)
    (ht' : Placed env t') (h : store.Readable env g t)
    (hprojection : (t.part g).projection = (t'.part g).projection) : store.Readable env g t' := by
  obtain ⟨row, hrow, hserves⟩ := h.status
  refine ⟨h.toAt, h.opened, row, ?_, hserves⟩
  rw [lookup_projection hsha ht h.record, hprojection] at hrow
  rw [lookup_projection hsha ht' h.record]
  exact hrow

lemma allObjects_eq_nil (hsha : CollisionFree env) (ht : Placed env db.tables)
    (h : store.Readable env g db.tables) :
    (alone sdk i (allObjects env) store db).1.1 = .ok [] ↔ db.tables.objectRows g.1 g.2 = [] := by
  have hall : allObjects env = (do
      assertReadable
      selectObjects env .any none : Py GraphStore (List (Object F X))) := rfl
  rw [hall, alone_bind, alone_assertReadable hsha ht h, aloneThen_ok,
    alone_selectObjects h.toAt .any (takes_none sdk)]
  simp only [limited]
  rw [mapM_eq_nil]
  have hfilter : (db.tables.objectRows g.1 g.2).filter ObjectFilter.any.accepts =
      db.tables.objectRows g.1 g.2 := List.filter_eq_self.mpr fun _ _ => rfl
  unfold Tables.selectedObjects
  rw [hfilter, sorted_eq_nil]

lemma allRelations_eq_nil (hsha : CollisionFree env) (ht : Placed env db.tables)
    (h : store.Readable env g db.tables) :
    (alone sdk i (allRelations env) store db).1.1 = .ok [] ↔
      db.tables.relationRows g.1 g.2 = [] := by
  unfold allRelations
  rw [alone_bind, alone_assertReadable hsha ht h, aloneThen_ok, alone_selectRelations h.toAt]
  simp only [if_true]
  rw [mapM_eq_nil]
  have hfilter : (db.tables.relationRows g.1 g.2).filter
      (RelationFilter.matching none none none).accepts = db.tables.relationRows g.1 g.2 :=
    List.filter_eq_self.mpr fun _ _ => rfl
  unfold Tables.selectedRelations
  rw [hfilter, sorted_eq_nil]

lemma allPatches_eq_nil (hsha : CollisionFree env) (ht : Placed env db.tables)
    (h : store.Readable env g db.tables) :
    (alone sdk i (allPatches env) store db).1.1 = .ok [] ↔ db.tables.patchRows g.1 g.2 = [] := by
  rw [alone_allPatches hsha ht h, mapM_eq_nil]
  unfold Tables.sortedPatches
  rw [sorted_eq_nil]

/-- Databases that all readers see the same are empty of the same kinds of entities. -/
lemma sameReads_empty (hsha : CollisionFree env) {db' : Database} (ht : Placed env db.tables)
    (ht' : Placed env db'.tables) (h : store.Readable env g db.tables)
    (h' : store.Readable env g db'.tables) (hsame : SameReads env sdk g db db') :
    (db.tables.objectRows g.1 g.2 = [] ↔ db'.tables.objectRows g.1 g.2 = []) ∧
    (db.tables.relationRows g.1 g.2 = [] ↔ db'.tables.relationRows g.1 g.2 = []) ∧
    (db.tables.patchRows g.1 g.2 = [] ↔ db'.tables.patchRows g.1 g.2 = []) := by
  have hobjects := hsame 0 store .allObjects h.toAt trivial
  have hrelations := hsame 0 store .allRelations h.toAt trivial
  have hpatches := hsame 0 store .allPatches h.toAt trivial
  rw [← allObjects_eq_nil hsha ht h, ← allObjects_eq_nil hsha ht' h',
    ← allRelations_eq_nil hsha ht h, ← allRelations_eq_nil hsha ht' h',
    ← allPatches_eq_nil hsha ht h, ← allPatches_eq_nil hsha ht' h']
  refine ⟨Eq.congr_left hobjects, Eq.congr_left hrelations, Eq.congr_left hpatches⟩

lemma rows_unlinked : (unlinked sdk i g db).tables.objectRows g.1 g.2 =
      db.tables.objectRows g.1 g.2 ∧
    (unlinked sdk i g db).tables.relationRows g.1 g.2 = [] ∧
    (unlinked sdk i g db).tables.patchRows g.1 g.2 = db.tables.patchRows g.1 g.2 := by
  rw [objectRows_part, relationRows_part, patchRows_part, part_unlinked, objectRows_part,
    patchRows_part]
  exact ⟨rfl, rfl, rfl⟩

lemma rows_unpatched : (unpatched sdk i g db).tables.objectRows g.1 g.2 =
      db.tables.objectRows g.1 g.2 ∧
    (unpatched sdk i g db).tables.relationRows g.1 g.2 = [] ∧
    (unpatched sdk i g db).tables.patchRows g.1 g.2 = [] := by
  rw [objectRows_part, relationRows_part, patchRows_part, part_unpatched, objectRows_part]
  exact ⟨rfl, rfl, rfl⟩

variable (sdk i) in
lemma rows_cleared (hsha : CollisionFree env) (ht : Placed env db.tables) :
    (cleared sdk i g db).tables.objectRows g.1 g.2 = [] ∧
    (cleared sdk i g db).tables.relationRows g.1 g.2 = [] ∧
    (cleared sdk i g db).tables.patchRows g.1 g.2 = [] := by
  rw [objectRows_part, relationRows_part, patchRows_part, part_cleared hsha ht]
  exact ⟨rfl, rfl, rfl⟩

/-- A clearing that fails into one of the two states is one of a single kind of entities. -/
lemma oneKind_of_atomic (hsha : CollisionFree env) (ht : Placed env db.tables)
    (h : store.Readable env g db.tables)
    (hatomic : ∀ hist e store' db', (clear store).Exec ((engine sdk).serve (faults True False) i)
      db hist (.error e, store') db' → SameReads env sdk g db db' ∨
      SameReads env sdk g (alone sdk i clear store db).2 db') : db.tables.OneKind g := by
  obtain ⟨⟨hist, hfirst⟩, hist', hsecond⟩ := clear_fails sdk i db h.toAt h.opened
  rw [alone_clear h.toAt h.opened] at hatomic
  have hplaced : Placed env (unlinked sdk i g db).tables := placed_unlinked hsha ht
  have hplaced' : Placed env (unpatched sdk i g db).tables := placed_unpatched hsha ht
  have hcleared : Placed env (cleared sdk i g db).tables := placed_cleared hsha ht
  have hread := h.transfer hsha ht hplaced (by rw [part_unlinked])
  have hread' := h.transfer hsha ht hplaced' (by rw [part_unpatched])
  have hreadCleared := h.transfer hsha ht hcleared (by rw [part_cleared hsha ht])
  obtain ⟨hobjects, hrelations, hpatches⟩ := rows_cleared sdk i hsha ht
  have hone : db.tables.relationRows g.1 g.2 = [] ∨
      db.tables.objectRows g.1 g.2 = [] ∧ db.tables.patchRows g.1 g.2 = [] := by
    rcases hatomic _ _ _ _ hfirst with hsame | hsame
    · obtain ⟨-, hiff, -⟩ := sameReads_empty hsha ht hplaced h hread hsame
      exact .inl (hiff.mpr rows_unlinked.2.1)
    · obtain ⟨hiff, -, hiff'⟩ := sameReads_empty hsha hcleared hplaced hreadCleared hread hsame
      rw [rows_unlinked.1] at hiff
      rw [rows_unlinked.2.2] at hiff'
      exact .inr ⟨hiff.mp hobjects, hiff'.mp hpatches⟩
  have hother : db.tables.relationRows g.1 g.2 = [] ∧ db.tables.patchRows g.1 g.2 = [] ∨
      db.tables.objectRows g.1 g.2 = [] := by
    rcases hatomic _ _ _ _ hsecond with hsame | hsame
    · obtain ⟨-, hiff, hiff'⟩ := sameReads_empty hsha ht hplaced' h hread' hsame
      exact .inl ⟨hiff.mpr rows_unpatched.2.1, hiff'.mpr rows_unpatched.2.2⟩
    · obtain ⟨hiff, -, -⟩ := sameReads_empty hsha hcleared hplaced' hreadCleared hread' hsame
      rw [rows_unpatched.1] at hiff
      exact .inr (hiff.mp hobjects)
  rcases hone with hrelation | ⟨hobject, hpatch⟩
  · rcases hother with ⟨-, hpatch⟩ | hobject
    · exact .inr (.inr ⟨hrelation, hpatch⟩)
    · exact .inl ⟨hobject, hrelation⟩
  · exact .inr (.inl ⟨hobject, hpatch⟩)

lemma visible_unlinked : (unlinked sdk i g db).tables.visible g =
    { db.tables.visible g with relation := [] } := by
  unfold Tables.visible Part.contents Contents.visible
  rw [part_unlinked]

lemma visible_unpatched : (unpatched sdk i g db).tables.visible g =
    { db.tables.visible g with relation := [], patch := [] } := by
  unfold Tables.visible Part.contents Contents.visible
  rw [part_unpatched]

lemma visible_cleared (hsha : CollisionFree env) (ht : Placed env db.tables) :
    (cleared sdk i g db).tables.visible g =
      { db.tables.visible g with vertex := [], relation := [], patch := [] } := by
  unfold Tables.visible Part.contents Contents.visible
  rw [part_cleared hsha ht, List.filter_nil]

lemma visible_empty {t : Tables} : (t.objectRows g.1 g.2 = [] ↔ (t.visible g).vertex = []) ∧
    (t.relationRows g.1 g.2 = [] ↔ (t.visible g).relation = []) ∧
    (t.patchRows g.1 g.2 = [] ↔ (t.visible g).patch = []) := by
  refine ⟨?_, ?_, ?_⟩
  · rw [objectRows_part, List.filter_map, List.map_eq_nil_iff]
    rfl
  · rw [relationRows_part, List.map_eq_nil_iff]
    rfl
  · rw [patchRows_part, List.map_eq_nil_iff]
    rfl

/-- With one kind of entities, clearing is over as soon as it has begun to show. -/
lemma atomic_of_oneKind (hsha : CollisionFree env) (ht : Placed env db.tables)
    (h : store.Readable env g db.tables) (hone : db.tables.OneKind g)
    {hist : List (CallRec Call Answer Database)} {e : PyErr} {store' : GraphStore}
    {db' : Database} (he : (clear store).Exec ((engine sdk).serve (faults True False) i) db hist
      (.error e, store') db') :
    SameReads env sdk g db db' ∨ SameReads env sdk g (alone sdk i clear store db).2 db' := by
  rw [alone_clear h.toAt h.opened]
  have hplaced : Placed env (unlinked sdk i g db).tables := placed_unlinked hsha ht
  have hplaced' : Placed env (unpatched sdk i g db).tables := placed_unpatched hsha ht
  have hcleared : Placed env (cleared sdk i g db).tables := placed_cleared hsha ht
  obtain ⟨hobjects, hrelations, hpatches⟩ := visible_empty (g := g) (t := db.tables)
  unfold Tables.OneKind at hone
  rw [hobjects, hrelations, hpatches] at hone
  have hsame : ∀ db' : Database, Placed env db'.tables →
      db.tables.visible g = db'.tables.visible g ∨
      (cleared sdk i g db).tables.visible g = db'.tables.visible g →
      SameReads env sdk g db db' ∨ SameReads env sdk g (cleared sdk i g db) db' := by
    rintro db' ht' (hvisible | hvisible)
    · exact .inl (sameReads_of_visible hsha ht ht' hvisible)
    · exact .inr (sameReads_of_visible hsha hcleared ht' hvisible)
  rcases Prog.always_iff.mp (always_clear h.toAt h.opened) hist _ db' he e rfl with
    rfl | rfl | rfl
  · exact hsame _ ht (.inl rfl)
  · apply hsame _ hplaced
    rw [visible_unlinked, visible_cleared hsha ht]
    rcases hone with ⟨-, hempty⟩ | ⟨hempty, hempty'⟩ | ⟨hempty, -⟩
    · exact .inl (by rw [← hempty])
    · exact .inr (by rw [← hempty, ← hempty'])
    · exact .inl (by rw [← hempty])
  · apply hsame _ hplaced'
    rw [visible_unpatched, visible_cleared hsha ht]
    rcases hone with ⟨hempty, -⟩ | ⟨hempty, -⟩ | ⟨hempty, hempty'⟩
    · exact .inr (by rw [← hempty])
    · exact .inr (by rw [← hempty])
    · exact .inl (by rw [← hempty, ← hempty'])

/-- A failing mutation leaves what it found or what it would have made, except that `clear`
does so only where at most one kind of entities has any. -/
theorem mutation_atomic_iff (hsha : CollisionFree env) (ht : Placed env db.tables)
    (h : store.Readable env g db.tables) {c : GraphCall F X} (hc : ¬ c.Reads) :
    (∀ hist e store' db', (c.code env store).Exec ((engine sdk).serve (faults True False) i) db
      hist (.error e, store') db' → SameReads env sdk g db db' ∨
      SameReads env sdk g (alone sdk i (c.code env) store db).2 db') ↔
    (c = .clear → db.tables.OneKind g) := by
  constructor
  · rintro hatomic rfl
    exact oneKind_of_atomic hsha ht h hatomic
  · intro hone hist e store' db' he
    by_cases hclear : c = .clear
    · subst hclear
      exact atomic_of_oneKind hsha ht h (hone rfl) he
    · have htables : db'.tables = db.tables :=
        Prog.always_iff.mp (atomic_code hc hclear store db) hist _ db' he e rfl
      left
      refine sameReads_of_visible hsha ht ?_ ?_
      · rw [htables]
        exact ht
      · rw [htables]

end GraphStore

theorem mutation_atomic_iff_parallel :
    (∀ hist e store' db', (GraphCall.code (reference Unit) .clear (referenceGraph ("s", "r"))).Exec
        ((engine referenceSdk).serve (faults True False) 0) parallelDatabase hist (.error e, store')
          db' →
      SameReads (reference Unit) referenceSdk ("s", "r") parallelDatabase db' ∨
      SameReads (reference Unit) referenceSdk ("s", "r") (alone referenceSdk 0
        (GraphCall.code (reference Unit) .clear) (referenceGraph ("s", "r")) parallelDatabase).2 db') ↔
    ((GraphCall.clear : GraphCall Unit Empty) = .clear →
      parallelDatabase.tables.OneKind ("s", "r")) :=
  GraphStore.mutation_atomic_iff reference_collisionFree sound_parallel.toPlaced readable_parallel id

/-- Two relations and an object: a clearing that loses its second call is seen half done. -/
theorem clear_seen_half_done : ¬ ∀ hist e store' db',
    (GraphStore.clear (referenceGraph ("s", "r"))).Exec
      ((engine referenceSdk).serve (faults True False) 0) parallelDatabase hist (.error e, store')
        db' →
    SameReads (reference Unit) referenceSdk ("s", "r") parallelDatabase db' ∨
    SameReads (reference Unit) referenceSdk ("s", "r")
      (alone referenceSdk 0 GraphStore.clear (referenceGraph ("s", "r")) parallelDatabase).2 db' := by
  intro hatomic
  have hone := GraphStore.oneKind_of_atomic reference_collisionFree sound_parallel.toPlaced
    readable_parallel hatomic
  have hlookup : parallelDatabase.tables.relation.lookup
      (keyOf (relationKey (reference Unit) ("s", "r") "r1")) = some (parallelRow "r1") := rfl
  have hrelation := List.ne_nil_of_mem (near_parallel hlookup).1
  have hobject : parallelDatabase.tables.objectRows "s" "r" ≠ [] := by
    have hvertex : parallelDatabase.tables.vertex.lookup (referenceVertex "a") =
        some ⟨"s", "r", "a", true, some 0, some "node", some "{}", some 1, some "{}"⟩ := rfl
    exact List.ne_nil_of_mem (GraphStore.mem_objectRows.mpr ⟨⟨_, hvertex⟩, rfl, rfl⟩)
  rcases hone with ⟨-, hempty⟩ | ⟨hempty, -⟩ | ⟨hempty, -⟩
  · exact hrelation hempty
  · exact hobject hempty
  · exact hrelation hempty

end ActiveGraphSurreal
