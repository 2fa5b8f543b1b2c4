import ActiveGraphSurreal.Proofs.Addressed
import ActiveGraphSurreal.Proofs.Running

/-!
# Reading a projection

What the methods of a graph store return when they run alone on sound tables, over a
projection that the store may read.
-/

namespace ActiveGraphSurreal

open Library

set_option linter.unusedSectionVars false

variable {F X : Type} [Json.ScalarText F]

namespace GraphStore

/-- The store is open, and the status of its projection lets it read. -/
structure Readable (env : Env F X) (g : String × String) (store : GraphStore) (t : Tables) :
    Prop extends store.At env g where
  opened : store.closed = false
  status : ∃ row, t.projection.lookup store.projectionRecord.key = some row ∧
    store.serves row.status

variable {env : Env F X} {sdk : Sdk} {i : Nat} {g : String × String} {store : GraphStore}
  {db : Database}

lemma alone_ensureOpen (h : store.closed = false) :
    alone sdk i ensureOpen store db = ((.ok (), store), db) := by
  unfold ensureOpen
  simp [raiseIf, h]

lemma alone_assertScopedRow {scope runId : String} {logical : Option (String × String)}
    (haddress : (scope, runId) = store.address) (hlogical : ∀ ids ∈ logical, ids.1 = ids.2) :
    alone sdk i (assertScopedRow scope runId logical) store db = ((.ok (), store), db) := by
  obtain ⟨rfl, rfl⟩ := Prod.mk.inj haddress
  have hsame : (logical.any fun ids => ids.1 ≠ ids.2) = false := by
    cases logical with
    | none => rfl
    | some ids => simp [hlogical ids rfl]
  unfold assertScopedRow
  simp only [alone_bind, alone_get, aloneThen_ok, alone_lift, hsame]
  simp [raiseIf]

lemma not_logical : ∀ ids ∈ (none : Option (String × String)), ids.1 = ids.2 := by simp

lemma alone_assertReadable (hsha : CollisionFree env) (ht : Placed env db.tables)
    (h : store.Readable env g db.tables) :
    alone sdk i assertReadable store db = ((.ok (), store), db) := by
  obtain ⟨row, hrow, hserves⟩ := h.status
  have hread : alone sdk i (query (.selectProjection store.projectionRecord)) store db =
      ((.ok (some row), store), db) := alone_read sdk i store db (by simp [Stmt.exec, hrow])
  have hscope : (row.scope, row.runId) = store.address := by
    have hplace := ht.projection _ _ hrow
    rw [h.address]
    exact (key_address hsha (g := (row.scope, row.runId)) hplace h.record).1
  have hprojection : alone sdk i projectionRow store db = ((.ok (some row), store), db) := by
    unfold projectionRow
    simp only [alone_bind, alone_get, aloneThen_ok, hread,
      alone_assertScopedRow hscope not_logical, alone_pure]
  have hstatus : alone sdk i projectionStatus store db = ((.ok row.status, store), db) := by
    unfold projectionStatus
    simp only [alone_bind, alone_ensureOpen h.opened, aloneThen_ok, hprojection, alone_pure]
  unfold assertReadable
  simp only [alone_bind, alone_get, aloneThen_ok, alone_ensureOpen h.opened, hstatus, alone_lift]
  simp [raiseIf, hserves]

lemma alone_vertexRecordId (h : store.At env g) (id : String) :
    alone sdk i (vertexRecordId env id) store db = ((vertexKey env g id, store), db) := by
  have haddress := h.address
  subst haddress
  unfold vertexRecordId
  simp only [alone_bind, alone_get, aloneThen_ok, alone_lift]
  rfl

lemma alone_relationRecordId (h : store.At env g) (id : String) :
    alone sdk i (relationRecordId env id) store db = ((relationKey env g id, store), db) := by
  have haddress := h.address
  subst haddress
  unfold relationRecordId
  simp only [alone_bind, alone_get, aloneThen_ok, alone_lift]
  rfl

lemma alone_patchRecordId (h : store.At env g) (id : String) :
    alone sdk i (patchRecordId env id) store db = ((patchKey env g id, store), db) := by
  have haddress := h.address
  subst haddress
  unfold patchRecordId
  simp only [alone_bind, alone_get, aloneThen_ok, alone_lift]
  rfl

/-! ### Rows in their places -/

variable {t : Tables}

lemma vertex_fields (hsha : CollisionFree env) (ht : Placed env t) {id : String}
    {vertex : RecordId .agVertex} (hkey : vertexKey env g id = .ok vertex) {row : VertexRow}
    (hrow : t.vertex.lookup vertex.key = some row) :
    (row.scope, row.runId) = g ∧ row.objectId = id := by
  obtain ⟨haddress, hid⟩ := key_address hsha (g := (row.scope, row.runId)) (ht.vertex _ _ hrow) hkey
  exact ⟨haddress, List.singleton_inj.mp hid⟩

lemma relation_fields (hsha : CollisionFree env) (ht : Placed env t) {id : String}
    {relation : RecordId .agRelation} (hkey : relationKey env g id = .ok relation)
    {row : RelationRow} (hrow : t.relation.lookup relation.key = some row) :
    (row.scope, row.runId) = g ∧ row.relationId = id := by
  obtain ⟨haddress, hid⟩ :=
    key_address hsha (g := (row.scope, row.runId)) (ht.relation _ _ hrow) hkey
  exact ⟨haddress, List.singleton_inj.mp hid⟩

lemma patch_fields (hsha : CollisionFree env) (ht : Placed env t) {id : String}
    {patch : RecordId .agPatch} (hkey : patchKey env g id = .ok patch) {row : PatchRow}
    (hrow : t.patch.lookup patch.key = some row) :
    (row.scope, row.runId) = g ∧ row.patchId = id := by
  obtain ⟨haddress, hid⟩ := key_address hsha (g := (row.scope, row.runId)) (ht.patch _ _ hrow) hkey
  exact ⟨haddress, List.singleton_inj.mp hid⟩

/-! ### Single entities -/

variable (env) in
/-- The object that a vertex record holds. -/
def presentObject : Option VertexRow → Except PyErr (Option (Object F X))
  | none => .ok none
  | some row => if row.objectPresent then (objectFromRow env row).map some else .ok none

lemma alone_getObject (hsha : CollisionFree env) (ht : Placed env db.tables)
    (h : store.Readable env g db.tables) (id : String) :
    alone sdk i (getObject env id) store db = (((vertexKey env g id).bind fun vertex =>
      presentObject env (db.tables.vertex.lookup vertex.key), store), db) := by
  unfold getObject
  simp only [alone_bind, alone_assertReadable hsha ht h, aloneThen_ok,
    alone_vertexRecordId h.toAt]
  cases hkey : vertexKey env g id with
  | error e => simp [Except.bind]
  | ok vertex =>
    have hread : alone sdk i (query (.selectVertex vertex)) store db =
        ((.ok (db.tables.vertex.lookup vertex.key), store), db) := alone_read sdk i store db rfl
    simp only [aloneThen_ok, alone_bind, hread, Except.bind]
    cases hrow : db.tables.vertex.lookup vertex.key with
    | none => rfl
    | some row =>
      obtain ⟨haddress, hid⟩ := vertex_fields hsha ht hkey hrow
      have hscope : (row.scope, row.runId) = store.address := haddress.trans h.address.symm
      by_cases hpresent : row.objectPresent
      · have hids : ∀ ids ∈ some (row.objectId, id), ids.1 = ids.2 := by simp [hid]
        simp only [presentObject, hpresent, if_true, alone_bind,
          alone_assertScopedRow hscope hids, aloneThen_ok, alone_lift]
        cases objectFromRow env row with
        | error e => rfl
        | ok obj => rfl
      · simp [presentObject, hpresent]

variable (env) in
/-- The relation that a record holds. -/
def storedRelation : Option RelationRow → Except PyErr (Option (Relation F X))
  | none => .ok none
  | some row => (relationFromRow env row).map some

lemma alone_getRelation (hsha : CollisionFree env) (ht : Placed env db.tables)
    (h : store.Readable env g db.tables) (id : String) :
    alone sdk i (getRelation env id) store db = (((relationKey env g id).bind fun relation =>
      storedRelation env (db.tables.relation.lookup relation.key), store), db) := by
  unfold getRelation
  simp only [alone_bind, alone_assertReadable hsha ht h, aloneThen_ok,
    alone_relationRecordId h.toAt]
  cases hkey : relationKey env g id with
  | error e => simp [Except.bind]
  | ok relation =>
    have hread : alone sdk i (query (.selectRelation relation)) store db =
        ((.ok (db.tables.relation.lookup relation.key), store), db) := alone_read sdk i store db rfl
    simp only [aloneThen_ok, alone_bind, hread, Except.bind]
    cases hrow : db.tables.relation.lookup relation.key with
    | none => rfl
    | some row =>
      obtain ⟨haddress, hid⟩ := relation_fields hsha ht hkey hrow
      have hscope : (row.scope, row.runId) = store.address := haddress.trans h.address.symm
      have hids : ∀ ids ∈ some (row.relationId, id), ids.1 = ids.2 := by simp [hid]
      simp only [storedRelation, alone_bind, alone_assertScopedRow hscope hids, aloneThen_ok,
        alone_lift]
      cases relationFromRow env row with
      | error e => rfl
      | ok rel => rfl

variable (env) in
/-- The patch that a record holds. -/
def storedPatch : Option PatchRow → Except PyErr (Option (Patch F X))
  | none => .ok none
  | some row => (patchFromRecord env row.toPatchRecord).map some

lemma alone_getPatch (hsha : CollisionFree env) (ht : Placed env db.tables)
    (h : store.Readable env g db.tables) (id : String) :
    alone sdk i (getPatch env id) store db = (((patchKey env g id).bind fun patch =>
      storedPatch env (db.tables.patch.lookup patch.key), store), db) := by
  unfold getPatch
  simp only [alone_bind, alone_assertReadable hsha ht h, aloneThen_ok, alone_patchRecordId h.toAt]
  cases hkey : patchKey env g id with
  | error e => simp [Except.bind]
  | ok patch =>
    have hread : alone sdk i (query (.selectPatch patch)) store db =
        ((.ok (db.tables.patch.lookup patch.key), store), db) := alone_read sdk i store db rfl
    simp only [aloneThen_ok, alone_bind, hread, Except.bind]
    cases hrow : db.tables.patch.lookup patch.key with
    | none => rfl
    | some row =>
      obtain ⟨haddress, hid⟩ := patch_fields hsha ht hkey hrow
      have hscope : (row.scope, row.runId) = store.address := haddress.trans h.address.symm
      have hids : ∀ ids ∈ some (row.patchId, id), ids.1 = ids.2 := by simp [hid]
      simp only [storedPatch, alone_bind, alone_assertScopedRow hscope hids, aloneThen_ok,
        alone_lift]
      cases patchFromRecord env row.toPatchRecord with
      | error e => rfl
      | ok patch => rfl

end GraphStore

/-! ### Lists of entities -/

/-- The present objects of a run that a filter accepts, in the order of the projection. -/
def Tables.selectedObjects (t : Tables) (g : String × String) (filter : ObjectFilter) :
    List VertexRow :=
  ((t.objectRows g.1 g.2).filter filter.accepts).insertionSort fun a b => objectLE a b

def Tables.selectedRelations (t : Tables) (g : String × String) (filter : RelationFilter) :
    List RelationRow := (t.relationRows g.1 g.2).filter filter.accepts

def Tables.sortedPatches (t : Tables) (g : String × String) : List PatchRow :=
  (t.patchRows g.1 g.2).insertionSort fun a b => patchLE a b

/-- The database takes the limit of a query. -/
def Sdk.Takes (sdk : Sdk) (limit : Option Int) : Prop := ∀ n ∈ limit, 0 ≤ n ∧ n ≤ sdk.maxLimit

lemma takes_none (sdk : Sdk) : sdk.Takes none := fun _ hn => (Option.not_mem_none _ hn).elim

lemma takes_one (sdk : Sdk) : sdk.Takes (some 1) := by
  intro n hn
  obtain rfl := Option.some.inj hn
  exact ⟨by decide, sdk.one_le_maxLimit⟩

/-- The first rows up to a limit. -/
def limited {R : Type} (limit : Option Int) (rows : List R) : List R :=
  match limit with
  | none => rows
  | some n => rows.take n.toNat

namespace GraphStore

variable {env : Env F X} {sdk : Sdk} {i : Nat} {g : String × String} {store : GraphStore}
  {db : Database}

lemma takeLimit_eq {R : Type} {limit : Option Int} (hlimit : sdk.Takes limit) (rows : List R) :
    takeLimit sdk limit rows = .ok (limited limit rows, []) := by
  cases limit with
  | none => rfl
  | some n =>
    have hn : ¬ (n < 0 ∨ sdk.maxLimit < n) := by
      have := hlimit n rfl
      omega
    simp [takeLimit, hn, limited]

lemma alone_selectObjects (h : store.At env g) (filter : ObjectFilter) {limit : Option Int}
    (hlimit : sdk.Takes limit) : alone sdk i (selectObjects env filter limit) store db =
      (((limited limit (db.tables.selectedObjects g filter)).mapM (objectFromRow env), store),
        db) := by
  have haddress := h.address
  subst haddress
  have hexec : Stmt.exec sdk (.selectObjects store.scope store.runId filter true limit) db.tables =
      .ok (limited limit (db.tables.selectedObjects store.address filter), []) :=
    takeLimit_eq hlimit _
  unfold selectObjects
  simp only [alone_bind, alone_get, aloneThen_ok, alone_read sdk i store db hexec, alone_lift]

lemma alone_selectRelations (h : store.At env g) (filter : RelationFilter) (ordered : Bool) :
    alone sdk i (selectRelations env filter ordered) store db =
      (((if ordered then (db.tables.selectedRelations g filter).insertionSort fun a b =>
          relationLE a b else sdk.scan (db.tables.selectedRelations g filter)).mapM
        (relationFromRow env), store), db) := by
  have haddress := h.address
  subst haddress
  have hexec : Stmt.exec sdk (.selectRelations store.scope store.runId filter ordered) db.tables =
      .ok (if ordered then (db.tables.selectedRelations store.address filter).insertionSort
        fun a b => relationLE a b
        else sdk.scan (db.tables.selectedRelations store.address filter), []) := rfl
  unfold selectRelations
  simp only [alone_bind, alone_get, aloneThen_ok, alone_read sdk i store db hexec, alone_lift]

lemma alone_allPatches (hsha : CollisionFree env) (ht : Placed env db.tables)
    (h : store.Readable env g db.tables) : alone sdk i (allPatches env) store db =
      (((db.tables.sortedPatches g).mapM fun row => patchFromRecord env row.toPatchRecord, store),
        db) := by
  have haddress := h.address
  have hexec : Stmt.exec sdk (.selectPatches store.scope store.runId) db.tables =
      .ok (db.tables.sortedPatches store.address, []) := rfl
  unfold allPatches
  simp only [alone_bind, alone_assertReadable hsha ht h, alone_get, aloneThen_ok,
    alone_read sdk i store db hexec, alone_lift, haddress]

/-! ### Rows that can be read -/

lemma mem_objectRows {t : Tables} {row : VertexRow} : row ∈ t.objectRows g.1 g.2 ↔
    (∃ key, t.vertex.lookup key = some row) ∧ (row.scope, row.runId) = g ∧ row.objectPresent := by
  unfold Tables.objectRows
  rw [List.mem_filter, Records.mem_rows]
  simp only [Bool.and_eq_true, decide_eq_true_eq, and_assoc, Prod.ext_iff]

lemma mem_relationRows {t : Tables} {row : RelationRow} : row ∈ t.relationRows g.1 g.2 ↔
    (∃ key, t.relation.lookup key = some row) ∧ (row.scope, row.runId) = g := by
  unfold Tables.relationRows
  rw [List.mem_filter, Records.mem_rows]
  simp only [Bool.and_eq_true, decide_eq_true_eq, Prod.ext_iff]

lemma objectRow_unique {t : Tables} (ht : Placed env t) {row row' : VertexRow}
    (h : row ∈ t.objectRows g.1 g.2) (h' : row' ∈ t.objectRows g.1 g.2)
    (hid : row.objectId = row'.objectId) : row = row' := by
  obtain ⟨⟨key, hrow⟩, haddress, -⟩ := mem_objectRows.mp h
  obtain ⟨⟨key', hrow'⟩, haddress', -⟩ := mem_objectRows.mp h'
  have hkey := ht.vertex key row hrow
  have hkey' := ht.vertex key' row' hrow'
  rw [haddress, hid] at hkey
  rw [haddress', hkey] at hkey'
  obtain rfl : key = key' := RecordId.mk.inj (Except.ok.inj hkey')
  exact Option.some.inj (hrow.symm.trans hrow')

lemma relationRow_unique {t : Tables} (ht : Placed env t) {row row' : RelationRow}
    (h : row ∈ t.relationRows g.1 g.2) (h' : row' ∈ t.relationRows g.1 g.2)
    (hid : row.relationId = row'.relationId) : row = row' := by
  obtain ⟨⟨key, hrow⟩, haddress⟩ := mem_relationRows.mp h
  obtain ⟨⟨key', hrow'⟩, haddress'⟩ := mem_relationRows.mp h'
  have hkey := ht.relation key row hrow
  have hkey' := ht.relation key' row' hrow'
  rw [haddress, hid] at hkey
  rw [haddress', hkey] at hkey'
  obtain rfl : key = key' := RecordId.mk.inj (Except.ok.inj hkey')
  exact Option.some.inj (hrow.symm.trans hrow')

lemma nodup_objectRows {t : Tables} (ht : Placed env t) (g : String × String) :
    ((t.objectRows g.1 g.2).map (·.objectId)).Nodup := by
  have hrows : t.vertex.rows.Nodup := Records.nodup_rows
    (p := fun row key => vertexKey env (row.scope, row.runId) row.objectId = .ok ⟨key⟩)
    (fun _ _ _ hkey hkey' => RecordId.mk.inj (Except.ok.inj (hkey.symm.trans hkey'))) ht.vertex
  exact (hrows.filter _).map_on fun row h row' h' hid => objectRow_unique ht h h' hid

lemma nodup_relationRows {t : Tables} (ht : Placed env t) (g : String × String) :
    ((t.relationRows g.1 g.2).map (·.relationId)).Nodup := by
  have hrows : t.relation.rows.Nodup := Records.nodup_rows
    (p := fun row key => relationKey env (row.scope, row.runId) row.relationId = .ok ⟨key⟩)
    (fun _ _ _ hkey hkey' => RecordId.mk.inj (Except.ok.inj (hkey.symm.trans hkey'))) ht.relation
  exact (hrows.filter _).map_on fun row h row' h' hid => relationRow_unique ht h h' hid

lemma objectFromRow_id {row : VertexRow} {obj : Object F X}
    (h : objectFromRow env row = .ok obj) : obj.id = row.objectId := by
  obtain ⟨_, -, h⟩ := bind_eq_ok.mp h
  obtain ⟨_, -, h⟩ := bind_eq_ok.mp h
  obtain ⟨_, -, h⟩ := bind_eq_ok.mp h
  obtain ⟨_, -, h⟩ := bind_eq_ok.mp h
  obtain ⟨_, -, h⟩ := bind_eq_ok.mp h
  obtain ⟨_, -, h⟩ := bind_eq_ok.mp h
  rw [← pure_eq_ok.mp h]

lemma relationFromRow_id {row : RelationRow} {rel : Relation F X}
    (h : relationFromRow env row = .ok rel) : rel.id = row.relationId := by
  obtain ⟨_, -, h⟩ := bind_eq_ok.mp h
  obtain ⟨_, -, h⟩ := bind_eq_ok.mp h
  rw [← pure_eq_ok.mp h]

/-- Rows that can be read one by one can be read together. -/
lemma mapM_ok {R A : Type} {f : R → Except PyErr A} {rows : List R}
    (h : ∀ row ∈ rows, ∃ a, f row = .ok a) :
    ∃ as, rows.mapM f = .ok as ∧ List.Forall₂ (fun row a => f row = .ok a) rows as := by
  induction rows with
  | nil => exact ⟨[], rfl, .nil⟩
  | cons row rows ih =>
    obtain ⟨a, ha⟩ := h row (List.mem_cons_self ..)
    obtain ⟨as, has, hrows⟩ := ih fun row' hrow' => h row' (List.mem_cons_of_mem _ hrow')
    refine ⟨a :: as, ?_, .cons ha hrows⟩
    rw [List.mapM_cons, ha, has]
    rfl

lemma forall₂_mem_iff {R A : Type} {f : R → Except PyErr A} {rows : List R} {as : List A}
    (h : List.Forall₂ (fun row a => f row = .ok a) rows as) (a : A) :
    a ∈ as ↔ ∃ row ∈ rows, f row = .ok a := by
  induction h with
  | nil => simp
  | @cons row b rows as hrow _ ih =>
    simp only [List.mem_cons, exists_eq_or_imp, ih, hrow, Except.ok.injEq]
    rw [eq_comm]

lemma forall₂_map_eq {R A : Type} {f : R → Except PyErr A} {name : R → String} {id : A → String}
    (hid : ∀ row a, f row = .ok a → id a = name row) {rows : List R} {as : List A}
    (h : List.Forall₂ (fun row a => f row = .ok a) rows as) : as.map id = rows.map name := by
  induction h with
  | nil => rfl
  | cons hrow _ ih => rw [List.map_cons, List.map_cons, hid _ _ hrow, ih]

/-- `ORDER BY relation_id ASC` -/
lemma pairwise_sortedRelations (rows : List RelationRow) :
    (rows.insertionSort fun a b => relationLE a b).Pairwise
      fun a b => a.relationId ≤ b.relationId := by
  have htotal : Std.Total fun a b : RelationRow => relationLE a b = true :=
    ⟨fun a b => by simpa [relationLE] using le_total a.relationId b.relationId⟩
  have htrans : IsTrans RelationRow fun a b => relationLE a b = true :=
    ⟨fun a b c => by simpa [relationLE] using le_trans⟩
  refine (List.pairwise_insertionSort (fun a b : RelationRow => relationLE a b = true) _).imp ?_
  intro a b hab
  simpa [relationLE] using hab

variable (sdk i) in
/-- The relations that a filter accepts, in the order of their ids. -/
lemma alone_sortedRelations (ht : Sound env db.tables) (h : store.At env g)
    (filter : RelationFilter) :
    ∃ rels, alone sdk i (selectRelations env filter true) store db = ((.ok rels, store), db) ∧
      rels.Pairwise (fun a b => a.id < b.id) ∧
      ∀ rel, rel ∈ rels ↔ ∃ row ∈ db.tables.relationRows g.1 g.2,
        relationFromRow env row = .ok rel ∧ filter.accepts row := by
  let rows := (db.tables.selectedRelations g filter).insertionSort fun a b => relationLE a b
  have hmem : ∀ row, row ∈ rows ↔ row ∈ db.tables.relationRows g.1 g.2 ∧ filter.accepts row := by
    intro row
    unfold rows Tables.selectedRelations
    rw [List.mem_insertionSort, List.mem_filter]
  have hlegible : ∀ row ∈ rows, ∃ rel, relationFromRow env row = .ok (rel : Relation F X) := by
    intro row hrow
    obtain ⟨⟨key, hkey⟩, -⟩ := mem_relationRows.mp ((hmem row).mp hrow).1
    exact ht.rel key row hkey
  obtain ⟨rels, hrels, hall⟩ := mapM_ok hlegible
  refine ⟨rels, ?_, ?_, fun rel => ?_⟩
  · rw [← hrels]
    exact alone_selectRelations h filter true
  · have hsorted : rows.Pairwise fun a b => a.relationId ≤ b.relationId :=
      pairwise_sortedRelations _
    have hnodup : (rows.map (·.relationId)).Nodup := by
      have hperm := List.perm_insertionSort (fun a b : RelationRow => relationLE a b = true)
        (db.tables.selectedRelations g filter)
      exact (hperm.map _).nodup_iff.mpr
        ((nodup_relationRows ht.toPlaced g).sublist (List.filter_sublist.map _))
    have hids : rels.map (·.id) = rows.map (·.relationId) :=
      forall₂_map_eq (fun _ _ => relationFromRow_id) hall
    have hlt := Records.increasing_of_nodup hsorted hnodup
    rw [← List.pairwise_map (f := fun row : RelationRow => row.relationId) (R := (· < ·)), ← hids,
      List.pairwise_map] at hlt
    exact hlt
  · rw [forall₂_mem_iff hall rel]
    simp only [hmem, and_assoc, and_comm]

end GraphStore

end ActiveGraphSurreal
