import ActiveGraphSurreal.Proofs.Reading

/-!
# What a reader can see

The answer of every reading method of a graph store depends on the status of the projection
and on its present objects, relations and patches only. A placeholder is never seen.
-/

namespace ActiveGraphSurreal

open Library

set_option linter.unusedSectionVars false

variable {F X : Type} [Json.ScalarText F]

/-- The rows of the projection of a run, with their keys. -/
structure Contents where
  projection : Entries ProjectionRow
  vertex : Entries VertexRow
  relation : Entries RelationRow
  patch : Entries PatchRow

def Part.contents (p : Part) : Contents := ⟨p.projection, p.vertex, p.relation, p.patch⟩

/-- The rows without the placeholders. -/
def Contents.visible (c : Contents) : Contents :=
  { c with vertex := c.vertex.filter fun e => e.2.objectPresent }

def Tables.visible (t : Tables) (g : String × String) : Contents := (t.part g).contents.visible

/-- The calls that change nothing. -/
def GraphCall.Reads : GraphCall F X → Prop
  | putObject _ | removeObject _ | putRelation _ | removeRelation _ | putPatch _ | removePatch _
  | clear => False
  | _ => True

variable (env : Env F X) (sdk : Sdk)

/-- Every reading method of every store of the run answers the same. -/
def SameReads (g : String × String) (db db' : Database) : Prop :=
  ∀ (i : Nat) (store : GraphStore) (c : GraphCall F X), store.At env g → c.Reads →
    (alone sdk i (c.code env) store db).1.1 = (alone sdk i (c.code env) store db').1.1

variable {env sdk} {g : String × String} {t t' : Tables}

/-! ### Statements that see the visible rows only -/

lemma visible_fields (h : t.visible g = t'.visible g) :
    (t.part g).projection = (t'.part g).projection ∧
    ((t.part g).vertex.filter fun e => e.2.objectPresent) =
      ((t'.part g).vertex.filter fun e => e.2.objectPresent) ∧
    (t.part g).relation = (t'.part g).relation ∧ (t.part g).patch = (t'.part g).patch :=
  Contents.mk.inj h

lemma objectRows_visible (h : t.visible g = t'.visible g) :
    t.objectRows g.1 g.2 = t'.objectRows g.1 g.2 := by
  have hrows : ∀ t : Tables, t.objectRows g.1 g.2 =
      ((t.part g).vertex.filter fun e => e.2.objectPresent).map Sigma.snd := by
    intro t
    rw [objectRows_part, List.filter_map]
    rfl
  rw [hrows, hrows, (visible_fields h).2.1]

lemma relationRows_visible (h : t.visible g = t'.visible g) :
    t.relationRows g.1 g.2 = t'.relationRows g.1 g.2 := by
  rw [relationRows_part, relationRows_part, (visible_fields h).2.2.1]

lemma patchRows_visible (h : t.visible g = t'.visible g) :
    t.patchRows g.1 g.2 = t'.patchRows g.1 g.2 := by
  rw [patchRows_part, patchRows_part, (visible_fields h).2.2.2]

/-! ### Methods that see the visible rows only -/

section rules

variable {α β : Type}

variable (env sdk g) in
/-- On tables with the same visible rows the method returns the same and changes nothing. -/
def Blind (m : Py GraphStore α) : Prop :=
  ∀ (i : Nat) (store : GraphStore) (db db' : Database), store.At env g → Placed env db.tables →
    Placed env db'.tables → db.tables.visible g = db'.tables.visible g →
    ∃ r, alone sdk i m store db = ((r, store), db) ∧ alone sdk i m store db' = ((r, store), db')

lemma blind_pure (a : α) : Blind env sdk g (pure a) := fun _ _ _ _ _ _ _ _ => ⟨.ok a, rfl, rfl⟩

lemma blind_throw (e : PyErr) : Blind env sdk g (throw e : Py GraphStore α) :=
  fun _ _ _ _ _ _ _ _ => ⟨.error e, rfl, rfl⟩

lemma blind_lift (x : Except PyErr α) : Blind env sdk g (lift x : Py GraphStore α) := by
  intro i store db db' _ _ _ _
  exact ⟨x, alone_lift .., alone_lift ..⟩

lemma Blind.bind {m : Py GraphStore α} {f : α → Py GraphStore β} (hm : Blind env sdk g m)
    (hf : ∀ a, Blind env sdk g (f a)) : Blind env sdk g (m >>= f) := by
  intro i store db db' hstore ht ht' hsame
  obtain ⟨r, hr, hr'⟩ := hm i store db db' hstore ht ht' hsame
  rw [alone_bind, alone_bind, hr, hr']
  cases r with
  | error e => exact ⟨.error e, rfl, rfl⟩
  | ok a => exact hf a i store db db' hstore ht ht' hsame

lemma Blind.get {f : GraphStore → Py GraphStore β}
    (hf : ∀ self, self.At env g → Blind env sdk g (f self)) : Blind env sdk g (get >>= f) := by
  intro i store db db' hstore ht ht' hsame
  rw [alone_bind, alone_bind]
  exact hf store hstore i store db db' hstore ht ht' hsame

lemma blind_query {st : Stmt} (hreads : (engine sdk).Reads st)
    (hagree : ∀ t t' : Tables, Placed env t → Placed env t' → t.visible g = t'.visible g →
      st.exec sdk t = st.exec sdk t') : Blind env sdk g (query st) := by
  intro i store db db' hstore ht ht' hsame
  have hanswer : ((engine sdk).perform i (.query st) db).1 =
      ((engine sdk).perform i (.query st) db').1 := by
    have hexec := hagree _ _ ht ht' hsame
    simp only [Engine.perform, engine]
    rw [← hexec]
    cases st.exec sdk db.tables with
    | error e => rfl
    | ok x => rfl
  refine ⟨((engine sdk).perform i (.query st) db).1, ?_, ?_⟩
  · rw [alone_query, perform_reads hreads]
  · rw [alone_query, perform_reads hreads, hanswer]

end rules

namespace GraphStore

variable {self : GraphStore}

lemma blind_ensureOpen : Blind env sdk g ensureOpen := Blind.get fun _ _ => blind_lift _

lemma blind_assertScopedRow (scope runId : String) (logical : Option (String × String)) :
    Blind env sdk g (assertScopedRow scope runId logical) :=
  Blind.get fun _ _ => (blind_lift _).bind fun _ => blind_lift _

lemma reads_select {st : Stmt} (h : ∀ t, ∃ r, st.exec sdk t = .ok (r, [])) :
    (engine sdk).Reads st := by
  intro t r ws hexec
  obtain ⟨r', hr'⟩ := h t
  exact (Prod.mk.inj (Except.ok.inj (hexec.symm.trans hr'))).2

lemma blind_projectionRow (hsha : CollisionFree env) : Blind env sdk g projectionRow := by
  unfold projectionRow
  refine Blind.get fun self hself => ?_
  have hquery : Blind env sdk g (query (.selectProjection self.projectionRecord)) := by
    refine blind_query (reads_select fun t => ⟨_, rfl⟩) fun t t' ht ht' hsame => ?_
    simp only [Stmt.exec]
    rw [lookup_projection hsha ht hself.record, lookup_projection hsha ht' hself.record,
      (visible_fields hsame).1]
  refine hquery.bind fun row => ?_
  cases row with
  | none => exact blind_pure _
  | some row => exact (blind_assertScopedRow _ _ _).bind fun _ => blind_pure _

lemma blind_assertReadable (hsha : CollisionFree env) : Blind env sdk g assertReadable := by
  have hstatus : Blind env sdk g projectionStatus := by
    unfold projectionStatus
    refine blind_ensureOpen.bind fun _ => (blind_projectionRow hsha).bind fun row => ?_
    cases row with
    | none => exact blind_throw _
    | some row => exact blind_pure _
  unfold assertReadable
  refine Blind.get fun self _ => blind_ensureOpen.bind fun _ => ?_
  exact hstatus.bind fun _ => blind_lift _

lemma blind_selectObjects (filter : ObjectFilter) (ordered : Bool) (limit : Option Int)
    (hself : self.At env g) :
    Blind env sdk g (query (.selectObjects self.scope self.runId filter ordered limit)) := by
  have haddress := hself.address
  subst haddress
  refine blind_query (fun t r ws hexec => takeLimit_writes hexec) fun t t' _ _ hsame => ?_
  have hrows : t.objectRows self.scope self.runId = t'.objectRows self.scope self.runId :=
    objectRows_visible hsame
  simp only [Stmt.exec]
  rw [hrows]

lemma blind_selectRelations (filter : RelationFilter) (ordered : Bool) (hself : self.At env g) :
    Blind env sdk g (query (.selectRelations self.scope self.runId filter ordered)) := by
  have haddress := hself.address
  subst haddress
  refine blind_query (reads_select fun t => ⟨_, rfl⟩) fun t t' _ _ hsame => ?_
  have hrows : t.relationRows self.scope self.runId = t'.relationRows self.scope self.runId :=
    relationRows_visible hsame
  simp only [Stmt.exec]
  rw [hrows]

/-- The objects of a query, read from its rows. -/
lemma blind_objects (filter : ObjectFilter) (limit : Option Int) :
    Blind env sdk g (selectObjects env filter limit) :=
  Blind.get fun _ hself => (blind_selectObjects _ _ _ hself).bind fun _ => blind_lift _

lemma blind_relations (filter : RelationFilter) (ordered : Bool) :
    Blind env sdk g (selectRelations env filter ordered) :=
  Blind.get fun _ hself => (blind_selectRelations _ _ hself).bind fun _ => blind_lift _

/-- After the key of an entity is computed, it is at hand. -/
lemma blind_key {α : Type} {table : Table} {ids : List String}
    {f : RecordId table → Py GraphStore α}
    (hf : ∀ record, recordId env.sha256 table (g.1 :: g.2 :: ids) = .ok record →
      Blind env sdk g (f record)) :
    Blind env sdk g (do
      let record ← (do
        let self ← get
        lift (recordId env.sha256 table (self.scope :: self.runId :: ids)))
      f record) := by
  intro i store db db' hstore ht ht' hsame
  have haddress := hstore.address
  subst haddress
  simp only [alone_bind, alone_get, aloneThen_ok, alone_lift]
  cases hkey : recordId env.sha256 table (store.scope :: store.runId :: ids) with
  | error e => exact ⟨.error e, rfl, rfl⟩
  | ok record => exact hf record hkey i store db db' hstore ht ht' hsame

lemma mem_part_vertex (hsha : CollisionFree env) (ht : Placed env t) {id : String}
    {vertex : RecordId .agVertex} (hkey : vertexKey env g id = .ok vertex) {row : VertexRow} :
    t.vertex.lookup vertex.key = some row ↔ ⟨vertex.key, row⟩ ∈ (t.part g).vertex := by
  have hpart : (t.part g).vertex =
      Records.owned (fun row => row.scope = g.1 && row.runId = g.2) t.vertex := rfl
  rw [hpart, Records.mem_owned]
  constructor
  · intro hrow
    have haddress := key_address hsha (g := (row.scope, row.runId)) (ht.vertex _ _ hrow) hkey
    exact ⟨hrow, isOwner haddress.1⟩
  · exact And.left

/-- Code that takes a placeholder for no record at all sees the visible rows only. -/
lemma blind_selectVertex {α : Type} (hsha : CollisionFree env) {id : String}
    {vertex : RecordId .agVertex} (hkey : vertexKey env g id = .ok vertex)
    {f : Option VertexRow → Py GraphStore α}
    (habsent : ∀ row, row.objectPresent = false → f (some row) = f none)
    (hf : ∀ found, Blind env sdk g (f found)) :
    Blind env sdk g (query (.selectVertex vertex) >>= f) := by
  intro i store db db' hstore ht ht' hsame
  have hread : ∀ db : Database, alone sdk i (query (.selectVertex vertex) >>= f) store db =
      alone sdk i (f (db.tables.vertex.lookup vertex.key)) store db := by
    intro db
    have hlookup : alone sdk i (query (.selectVertex vertex)) store db =
        ((.ok (db.tables.vertex.lookup vertex.key), store), db) := alone_read sdk i store db rfl
    rw [alone_bind, hlookup, aloneThen_ok]
  -- a present row is the same in both tables
  have hpresent : ∀ {t t' : Tables}, Placed env t → Placed env t' → t.visible g = t'.visible g →
      ∀ row, t.vertex.lookup vertex.key = some row → row.objectPresent = true →
      t'.vertex.lookup vertex.key = some row := by
    intro t t' ht ht' hsame row hrow hp
    rw [mem_part_vertex hsha ht hkey] at hrow
    have hmem : (⟨vertex.key, row⟩ : Sigma fun _ : String => VertexRow) ∈
        (t.part g).vertex.filter fun e => e.2.objectPresent := List.mem_filter.mpr ⟨hrow, hp⟩
    rw [(visible_fields hsame).2.1] at hmem
    exact (mem_part_vertex hsha ht' hkey).mpr (List.mem_of_mem_filter hmem)
  have hnone : ∀ t : Tables, (∀ row, t.vertex.lookup vertex.key = some row →
      ¬ row.objectPresent = true) → f (t.vertex.lookup vertex.key) = f none := by
    intro t hall
    cases hrow : t.vertex.lookup vertex.key with
    | none => rfl
    | some row => exact habsent row (Bool.eq_false_iff.mpr (hall row hrow))
  have hsameRow : f (db.tables.vertex.lookup vertex.key) =
      f (db'.tables.vertex.lookup vertex.key) := by
    by_cases hfound : ∃ row, db.tables.vertex.lookup vertex.key = some row ∧
        row.objectPresent = true
    · obtain ⟨row, hrow, hp⟩ := hfound
      rw [hrow, hpresent ht ht' hsame row hrow hp]
    · rw [hnone _ fun row hrow hp => hfound ⟨row, hrow, hp⟩, hnone _ fun row hrow hp =>
        hfound ⟨row, hpresent ht' ht hsame.symm row hrow hp, hp⟩]
  rw [hread, hread, hsameRow]
  exact hf _ i store db db' hstore ht ht' hsame

lemma blind_getObject (hsha : CollisionFree env) (id : String) :
    Blind env sdk g (getObject env id) := by
  unfold getObject
  refine (blind_assertReadable hsha).bind fun _ => blind_key fun vertex hvertex => ?_
  refine blind_selectVertex hsha hvertex ?_ ?_
  · intro row hp
    simp only [hp, Bool.false_eq_true, if_false]
  · intro found
    cases found with
    | none => exact blind_pure _
    | some row =>
      simp only
      split
      · exact (blind_assertScopedRow _ _ _).bind fun _ => (blind_lift _).bind fun _ => blind_pure _
      · exact blind_pure _

lemma blind_getRelation (hsha : CollisionFree env) (id : String) :
    Blind env sdk g (getRelation env id) := by
  unfold getRelation
  refine (blind_assertReadable hsha).bind fun _ => blind_key fun relation hrelation => ?_
  have hquery : Blind env sdk g (query (.selectRelation relation)) := by
    refine blind_query (reads_select fun t => ⟨_, rfl⟩) fun t t' ht ht' hsame => ?_
    have hkey : relationKey env g id = .ok relation := hrelation
    simp only [Stmt.exec]
    rw [lookup_relation hsha ht hkey, lookup_relation hsha ht' hkey, (visible_fields hsame).2.2.1]
  refine hquery.bind fun row => ?_
  cases row with
  | none => exact blind_pure _
  | some row =>
    exact (blind_assertScopedRow _ _ _).bind fun _ => (blind_lift _).bind fun _ => blind_pure _

lemma blind_getPatch (hsha : CollisionFree env) (id : String) :
    Blind env sdk g (getPatch env id) := by
  unfold getPatch
  refine (blind_assertReadable hsha).bind fun _ => blind_key fun patch hpatch => ?_
  have hquery : Blind env sdk g (query (.selectPatch patch)) := by
    refine blind_query (reads_select fun t => ⟨_, rfl⟩) fun t t' ht ht' hsame => ?_
    have hkey : patchKey env g id = .ok patch := hpatch
    simp only [Stmt.exec]
    rw [lookup_patch hsha ht hkey, lookup_patch hsha ht' hkey, (visible_fields hsame).2.2.2]
  refine hquery.bind fun row => ?_
  cases row with
  | none => exact blind_pure _
  | some row =>
    exact (blind_assertScopedRow _ _ _).bind fun _ => (blind_lift _).bind fun _ => blind_pure _

lemma blind_allPatches (hsha : CollisionFree env) : Blind env sdk g (allPatches env) := by
  unfold allPatches
  refine (blind_assertReadable hsha).bind fun _ => Blind.get fun self hself => ?_
  have haddress := hself.address
  subst haddress
  have hquery : Blind env sdk self.address (query (.selectPatches self.scope self.runId)) := by
    refine blind_query (reads_select fun t => ⟨_, rfl⟩) fun t t' _ _ hsame => ?_
    have hrows : t.patchRows self.scope self.runId = t'.patchRows self.scope self.runId :=
      patchRows_visible hsame
    simp only [Stmt.exec]
    rw [hrows]
  exact hquery.bind fun _ => blind_lift _

lemma blind_queryObjects (hsha : CollisionFree env) (plan : ObjectQuery F X) :
    Blind env sdk g (queryObjects env plan) := by
  unfold queryObjects objectExists
  refine (blind_assertReadable hsha).bind fun _ => ?_
  simp only
  split
  · refine Blind.bind (Blind.get fun self hself => ?_) fun _ => blind_pure _
    exact (blind_selectObjects _ _ _ hself).bind fun _ => blind_pure _
  · exact (blind_objects _ _).bind fun _ => blind_pure _

lemma blind_walk (depth : Nat) (w : Walk) : Blind env sdk g (walk depth w) := by
  induction depth generalizing w with
  | zero => exact blind_pure w
  | succ depth ih =>
    unfold walk
    split
    · exact blind_pure w
    · exact Blind.get fun self hself => (blind_selectRelations _ _ hself).bind fun rows => ih _

lemma blind_neighborhood (hsha : CollisionFree env) (id : String) (depth : Int) :
    Blind env sdk g (neighborhood env id depth) := by
  have hobjects : ∀ ids, Blind env sdk g (objectsByLogicalIds env ids) := by
    intro ids
    cases ids with
    | nil => exact blind_pure _
    | cons id ids => exact blind_objects _ _
  have hrelations : ∀ ids, Blind env sdk g (relationsByLogicalIds env ids) := by
    intro ids
    cases ids with
    | nil => exact blind_pure _
    | cons id ids => exact blind_relations _ _
  unfold neighborhood
  refine (blind_assertReadable hsha).bind fun _ => (blind_getObject hsha id).bind fun found => ?_
  cases found with
  | none => exact blind_pure _
  | some obj =>
    refine (blind_walk _ _).bind fun w => (hobjects _).bind fun _ => ?_
    exact (hrelations _).bind fun _ => blind_pure _

end GraphStore

/-- A reading method sees the visible rows only. -/
theorem blind_code (hsha : CollisionFree env) (c : GraphCall F X) (hc : c.Reads) :
    Blind env sdk g (c.code env) := by
  cases c with
  | getObject objectId => exact GraphStore.blind_getObject hsha objectId
  | allObjects =>
    exact (GraphStore.blind_assertReadable hsha).bind fun _ => GraphStore.blind_objects .any none
  | getRelation relationId => exact GraphStore.blind_getRelation hsha relationId
  | allRelations =>
    exact (GraphStore.blind_assertReadable hsha).bind fun _ => GraphStore.blind_relations _ _
  | queryObjects plan => exact GraphStore.blind_queryObjects hsha plan
  | findObjects objectType =>
    exact (GraphStore.blind_assertReadable hsha).bind fun _ => GraphStore.blind_objects _ _
  | findObjectsInTypes types =>
    cases types with
    | nil => exact blind_pure _
    | cons type types =>
      exact (GraphStore.blind_assertReadable hsha).bind fun _ => GraphStore.blind_objects _ _
  | findRelations source target relationType =>
    exact (GraphStore.blind_assertReadable hsha).bind fun _ => GraphStore.blind_relations _ _
  | neighborhood objectId depth => exact GraphStore.blind_neighborhood hsha objectId depth
  | getPatch patchId => exact GraphStore.blind_getPatch hsha patchId
  | allPatches => exact GraphStore.blind_allPatches hsha
  | _ => exact hc.elim

theorem sameReads_of_visible (hsha : CollisionFree env) {db db' : Database}
    (ht : Placed env db.tables) (ht' : Placed env db'.tables)
    (h : db.tables.visible g = db'.tables.visible g) : SameReads env sdk g db db' := by
  intro i store c hstore hc
  have hblind : Blind env sdk g (c.code env) := blind_code hsha c hc
  obtain ⟨r, hr, hr'⟩ := hblind i store db db' hstore ht ht' h
  rw [hr, hr']

end ActiveGraphSurreal
