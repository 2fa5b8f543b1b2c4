import ActiveGraphSurreal.Library.Distance
import ActiveGraphSurreal.Proofs.Reading
import ActiveGraphSurreal.Proofs.Reference

/-!
# Neighborhoods

The walk of `neighborhood` against the distances of the undirected graph of the stored
relations: after each level the endpoints seen are a ball, and its frontier is a sphere.
-/

namespace ActiveGraphSurreal

open Library

set_option linter.unusedSectionVars false

variable {F X : Type} [Json.ScalarText F]

/-- The undirected graph of the relations of a run. -/
def Tables.graph (t : Tables) (g : String × String) : SimpleGraph String :=
  .fromRel fun a b => ∃ row ∈ t.relationRows g.1 g.2, row.source = a ∧ row.target = b

variable {t : Tables} {g : String × String} {start : String}

lemma adj_graph {a b : String} : (t.graph g).Adj a b ↔ a ≠ b ∧ ∃ row ∈ t.relationRows g.1 g.2,
    (row.source = a ∧ row.target = b) ∨ (row.source = b ∧ row.target = a) := by
  unfold Tables.graph
  rw [SimpleGraph.fromRel_adj]
  refine and_congr_right fun _ => ?_
  constructor
  · rintro (⟨row, hrow, h⟩ | ⟨row, hrow, h⟩)
    · exact ⟨row, hrow, .inl h⟩
    · exact ⟨row, hrow, .inr h⟩
  · rintro ⟨row, hrow, h | h⟩
    · exact .inl ⟨row, hrow, h⟩
    · exact .inr ⟨row, hrow, h⟩

namespace GraphStore

/-! ### One level of the walk -/

lemma mem_visit {snapshot next : List String} {row : RelationRow} {x : String} :
    x ∈ Walk.visit snapshot next row ↔
      x ∈ next ∨ (x = row.source ∨ x = row.target) ∧ x ∉ snapshot := by
  have hone : ∀ (next : List String) (endpoint : String),
      x ∈ (if endpoint ∈ snapshot then next else next.insert endpoint) ↔
        x ∈ next ∨ x = endpoint ∧ x ∉ snapshot := by
    intro next endpoint
    by_cases hseen : endpoint ∈ snapshot
    · rw [if_pos hseen]
      constructor
      · exact .inl
      · rintro (h | ⟨rfl, h⟩)
        · exact h
        · exact absurd hseen h
    · rw [if_neg hseen, List.mem_insert_iff]
      constructor
      · rintro (rfl | h)
        · exact .inr ⟨rfl, hseen⟩
        · exact .inl h
      · rintro (h | ⟨h, -⟩)
        · exact .inr h
        · exact .inl h
  unfold Walk.visit
  rw [List.foldl_cons, List.foldl_cons, List.foldl_nil, hone, hone]
  tauto

lemma mem_visits {snapshot next : List String} {rows : List RelationRow} {x : String} :
    x ∈ rows.foldl (Walk.visit snapshot) next ↔
      x ∈ next ∨ (∃ row ∈ rows, x = row.source ∨ x = row.target) ∧ x ∉ snapshot := by
  induction rows generalizing next with
  | nil => simp
  | cons row rows ih =>
    rw [List.foldl_cons, ih, mem_visit]
    simp only [List.mem_cons, exists_eq_or_imp]
    rw [or_assoc, ← or_and_right]

lemma mem_seenRels {rels : List String} {rows : List RelationRow} {r : String} :
    r ∈ rows.foldl (fun rels row => rels.insert row.relationId) rels ↔
      r ∈ rels ∨ ∃ row ∈ rows, row.relationId = r := by
  induction rows generalizing rels with
  | nil => simp
  | cons row rows ih =>
    rw [List.foldl_cons, ih, List.mem_insert_iff]
    simp only [List.mem_cons, exists_eq_or_imp]
    rw [or_comm (a := r = row.relationId), or_assoc, eq_comm]

/-- The walk has seen the endpoints up to a distance and the relations with an endpoint
nearer than it. -/
structure Walk.Covers (t : Tables) (g : String × String) (start : String) (k : Nat)
    (w : Walk) : Prop where
  seen : ∀ x, x ∈ w.seenObjs ↔ (t.graph g).edist start x ≤ k
  rels : ∀ r, r ∈ w.seenRels ↔ ∃ row ∈ t.relationRows g.1 g.2, row.relationId = r ∧
    ((t.graph g).edist start row.source < k ∨ (t.graph g).edist start row.target < k)

/-- The walk after `k` levels. -/
structure Walk.After (t : Tables) (g : String × String) (start : String) (k : Nat) (w : Walk) :
    Prop extends w.Covers t g start k where
  frontier : ∀ x, x ∈ w.frontier ↔ (t.graph g).edist start x = k

lemma after_start : Walk.After t g start 0 ⟨[start], [start], []⟩ := by
  refine ⟨⟨?_, ?_⟩, ?_⟩
  · intro x
    rw [List.mem_singleton, Nat.cast_zero, nonpos_iff_eq_zero, SimpleGraph.edist_eq_zero_iff, eq_comm]
  · intro r
    simp
  · intro x
    rw [List.mem_singleton, Nat.cast_zero, SimpleGraph.edist_eq_zero_iff, eq_comm]

/-- The relations at the frontier. -/
def atFrontier (t : Tables) (g : String × String) (w : Walk) (row : RelationRow) : Prop :=
  row ∈ t.relationRows g.1 g.2 ∧ (row.source ∈ w.frontier ∨ row.target ∈ w.frontier)

/-- A level moves the frontier from one sphere to the next. -/
lemma Walk.After.level {k : Nat} {w : Walk} {rows : List RelationRow} (h : w.After t g start k)
    (hrows : ∀ row, row ∈ rows ↔ atFrontier t g w row) : (w.level rows).After t g start (k + 1) := by
  have hnext : ∀ x, x ∈ rows.foldl (Walk.visit w.seenObjs) [] ↔
      (t.graph g).edist start x = (k + 1 : ℕ) := by
    intro x
    rw [mem_visits, edist_succ_iff, ← not_le, ← h.seen x]
    constructor
    · rintro (hx | ⟨⟨row, hrow, hx⟩, hnew⟩)
      · cases hx
      · refine ⟨hnew, ?_⟩
        obtain ⟨hmem, hend⟩ := (hrows row).mp hrow
        have hold : ∀ y, y ∈ w.frontier → y ≠ x := by
          rintro y hy rfl
          exact hnew ((h.seen y).mpr ((h.frontier y).mp hy).le)
        have hadj : ∃ y, y ∈ w.frontier ∧ (t.graph g).Adj y x := by
          rcases hend with hend | hend
          · have hne := hold _ hend
            rcases hx with rfl | rfl
            · exact absurd rfl hne
            · exact ⟨_, hend, adj_graph.mpr ⟨hne, row, hmem, .inl ⟨rfl, rfl⟩⟩⟩
          · have hne := hold _ hend
            rcases hx with rfl | rfl
            · exact ⟨_, hend, adj_graph.mpr ⟨hne, row, hmem, .inr ⟨rfl, rfl⟩⟩⟩
            · exact absurd rfl hne
        obtain ⟨y, hy, hadj⟩ := hadj
        exact ⟨y, (h.frontier y).mp hy, hadj⟩
    · rintro ⟨hnew, y, hy, hadj⟩
      refine .inr ⟨?_, hnew⟩
      obtain ⟨-, row, hmem, hends⟩ := adj_graph.mp hadj
      have hfrontier : y ∈ w.frontier := (h.frontier y).mpr hy
      rcases hends with ⟨rfl, rfl⟩ | ⟨rfl, rfl⟩
      · exact ⟨row, (hrows row).mpr ⟨hmem, .inl hfrontier⟩, .inr rfl⟩
      · exact ⟨row, (hrows row).mpr ⟨hmem, .inr hfrontier⟩, .inl rfl⟩
  have hball : ∀ d : ℕ∞, d ≤ (k + 1 : ℕ) ↔ d ≤ k ∨ d = (k + 1 : ℕ) := by
    intro d
    rw [le_iff_lt_or_eq]
    refine or_congr_left ?_
    push_cast
    exact ENat.lt_add_one_iff (ENat.natCast_ne_top k)
  have hnear : ∀ d : ℕ∞, d < (k + 1 : ℕ) ↔ d < k ∨ d = k := by
    intro d
    rw [← le_iff_lt_or_eq]
    push_cast
    exact ENat.lt_add_one_iff (ENat.natCast_ne_top k)
  refine ⟨⟨?_, ?_⟩, hnext⟩
  · intro x
    change x ∈ w.seenObjs ∪ rows.foldl (Walk.visit w.seenObjs) [] ↔ _
    rw [List.mem_union_iff, hnext, h.seen, hball]
  · intro r
    unfold Walk.level
    simp only
    rw [mem_seenRels, h.rels]
    simp only [hnear, hrows, atFrontier, h.frontier]
    constructor
    · rintro (⟨row, hmem, hid, hends⟩ | ⟨row, ⟨hmem, hends⟩, hid⟩)
      · exact ⟨row, hmem, hid, by tauto⟩
      · exact ⟨row, hmem, hid, by tauto⟩
    · rintro ⟨row, hmem, hid, hends⟩
      by_cases hnear : (t.graph g).edist start row.source < k ∨ (t.graph g).edist start row.target < k
      · exact .inl ⟨row, hmem, hid, hnear⟩
      · exact .inr ⟨row, ⟨hmem, by tauto⟩, hid⟩

/-- Beyond an empty frontier there is nothing more to see. -/
lemma Walk.After.covers_of_empty {k n : Nat} {w : Walk} (h : w.After t g start k)
    (hempty : w.frontier = []) (hkn : k ≤ n) : w.Covers t g start n := by
  have hsphere : ∀ x, (t.graph g).edist start x ≠ k := by
    intro x hx
    have hmem := (h.frontier x).mpr hx
    rw [hempty] at hmem
    cases hmem
  have hle : ∀ x, (t.graph g).edist start x ≤ k ↔ (t.graph g).edist start x ≤ n := by
    intro x
    constructor
    · intro hx
      exact hx.trans (by exact_mod_cast hkn)
    · intro hx
      exact (edist_lt_of_sphere_empty hsphere hx).le
  have hlt : ∀ x, (t.graph g).edist start x < k ↔ (t.graph g).edist start x < n := by
    intro x
    constructor
    · intro hx
      exact hx.trans_le (by exact_mod_cast hkn)
    · intro hx
      exact edist_lt_of_sphere_empty hsphere hx.le
  refine ⟨fun x => (h.seen x).trans (hle x), fun r => (h.rels r).trans ?_⟩
  simp only [hlt]

/-! ### The walk -/

variable {env : Env F X} {sdk : Sdk} {i : Nat} {store : GraphStore} {db : Database}

lemma alone_walk (h : store.At env g) {n k : Nat} {w : Walk}
    (hw : w.After db.tables g start k) : ∃ w', alone sdk i (walk n w) store db =
      ((.ok w', store), db) ∧ w'.Covers db.tables g start (k + n) := by
  have haddress := h.address
  subst haddress
  induction n generalizing k w with
  | zero => exact ⟨w, rfl, hw.toCovers⟩
  | succ n ih =>
    by_cases hempty : w.frontier = []
    · refine ⟨w, ?_, hw.covers_of_empty hempty (Nat.le_add_right k _)⟩
      unfold walk
      rw [if_pos hempty]
      rfl
    · have hexec : Stmt.exec sdk (.selectRelations store.scope store.runId
          (.touching (w.frontier.insertionSort (· ≤ ·))) true) db.tables =
          .ok ((db.tables.selectedRelations store.address
            (.touching (w.frontier.insertionSort (· ≤ ·)))).insertionSort
              fun a b => relationLE a b, []) := rfl
      have hrows : ∀ row, row ∈ (db.tables.selectedRelations store.address
          (.touching (w.frontier.insertionSort (· ≤ ·)))).insertionSort
            (fun a b => relationLE a b) ↔ atFrontier db.tables store.address w row := by
        intro row
        unfold atFrontier Tables.selectedRelations RelationFilter.accepts
        simp only [List.mem_insertionSort, List.mem_filter, Bool.or_eq_true, decide_eq_true_eq]
      obtain ⟨w', hrun, hcovers⟩ := ih (hw.level hrows)
      refine ⟨w', ?_, ?_⟩
      · unfold walk
        rw [if_neg hempty]
        simp only [alone_bind, alone_get, aloneThen_ok, alone_read sdk i store db hexec]
        exact hrun
      · rw [show k + (n + 1) = k + 1 + n by omega]
        exact hcovers

end GraphStore

/-! ### Neighborhoods -/

/-- The run has a present object with the id. -/
def Tables.HasObject (t : Tables) (g : String × String) (id : String) : Prop :=
  ∃ row ∈ t.objectRows g.1 g.2, row.objectId = id

/-- A query without `ORDER BY` returns its rows in some order. -/
def Sdk.Permutes (sdk : Sdk) : Prop := ∀ rows, (sdk.scan rows).Perm rows

namespace GraphStore

variable {env : Env F X} {sdk : Sdk} {i : Nat} {store : GraphStore} {db : Database}

lemma objectsByLogicalIds_eq {ids : List String} (hne : ids ≠ []) :
    objectsByLogicalIds env ids =
      selectObjects env (.withIds (ids.insertionSort (· ≤ ·))) none := by
  cases ids with
  | nil => exact absurd rfl hne
  | cons id ids => rfl

lemma relationsByLogicalIds_eq {ids : List String} (hne : ids ≠ []) :
    relationsByLogicalIds env ids =
      selectRelations env (.withIds (ids.insertionSort (· ≤ ·))) false := by
  cases ids with
  | nil => exact absurd rfl hne
  | cons id ids => rfl

/-- The rows of the objects that a walk has seen. -/
def foundObjects (t : Tables) (g : String × String) (ids : List String) : List VertexRow :=
  if ids = [] then [] else t.selectedObjects g (.withIds (ids.insertionSort (· ≤ ·)))

/-- The rows of the relations that a walk has seen, as the database returns them. -/
def foundRelations (sdk : Sdk) (t : Tables) (g : String × String) (ids : List String) :
    List RelationRow :=
  if ids = [] then []
  else sdk.scan (t.selectedRelations g (.withIds (ids.insertionSort (· ≤ ·))))

lemma mem_foundObjects {ids : List String} {row : VertexRow} :
    row ∈ foundObjects t g ids ↔ row ∈ t.objectRows g.1 g.2 ∧ row.objectId ∈ ids := by
  unfold foundObjects
  split
  · next hids => simp [hids]
  · unfold Tables.selectedObjects ObjectFilter.accepts
    simp only [List.mem_insertionSort, List.mem_filter, decide_eq_true_eq]

lemma nodup_foundObjects (ht : Placed env t) (ids : List String) :
    ((foundObjects t g ids).map (·.objectId)).Nodup := by
  unfold foundObjects
  split
  · exact List.nodup_nil
  · have hperm := List.perm_insertionSort (fun a b => objectLE a b = true)
      ((t.objectRows g.1 g.2).filter (ObjectFilter.withIds (ids.insertionSort (· ≤ ·))).accepts)
    exact (hperm.map _).nodup_iff.mpr
      ((nodup_objectRows ht g).sublist (List.filter_sublist.map _))

lemma perm_foundRelations (hscan : sdk.Permutes) (ids : List String) :
    (foundRelations sdk t g ids).Perm
      ((t.relationRows g.1 g.2).filter fun row => row.relationId ∈ ids) := by
  unfold foundRelations
  split
  · next hids => simp [hids]
  · refine (hscan _).trans (List.Perm.of_eq ?_)
    unfold Tables.selectedRelations RelationFilter.accepts
    simp only [List.mem_insertionSort]

lemma mem_foundRelations (hscan : sdk.Permutes) {ids : List String} {row : RelationRow} :
    row ∈ foundRelations sdk t g ids ↔ row ∈ t.relationRows g.1 g.2 ∧ row.relationId ∈ ids := by
  rw [(perm_foundRelations hscan ids).mem_iff, List.mem_filter, decide_eq_true_eq]

lemma nodup_foundRelations (hscan : sdk.Permutes) (ht : Placed env t) (ids : List String) :
    ((foundRelations sdk t g ids).map (·.relationId)).Nodup :=
  ((perm_foundRelations hscan ids).map _).nodup_iff.mpr
    ((nodup_relationRows ht g).sublist (List.filter_sublist.map _))

lemma alone_objectsByLogicalIds (h : store.At env g) (ids : List String) :
    alone sdk i (objectsByLogicalIds env ids) store db =
      (((foundObjects db.tables g ids).mapM (objectFromRow env), store), db) := by
  unfold foundObjects
  by_cases hids : ids = []
  · subst hids
    rfl
  · rw [objectsByLogicalIds_eq hids, if_neg hids]
    exact alone_selectObjects h _ (takes_none sdk)

lemma alone_relationsByLogicalIds (h : store.At env g) (ids : List String) :
    alone sdk i (relationsByLogicalIds env ids) store db =
      (((foundRelations sdk db.tables g ids).mapM (relationFromRow env), store), db) := by
  unfold foundRelations
  by_cases hids : ids = []
  · subst hids
    rfl
  · rw [relationsByLogicalIds_eq hids, if_neg hids]
    exact alone_selectRelations h _ false

/-- Whether the id has a present object is read from its vertex record. -/
lemma hasObject_iff (ht : Placed env db.tables) (hsha : CollisionFree env) (id : String) :
    db.tables.HasObject g id ↔ ∃ vertex row, vertexKey env g id = .ok vertex ∧
      db.tables.vertex.lookup vertex.key = some row ∧ row.objectPresent := by
  constructor
  · rintro ⟨row, hrow, rfl⟩
    obtain ⟨⟨key, hkey⟩, haddress, hpresent⟩ := mem_objectRows.mp hrow
    have hplace := ht.vertex key row hkey
    rw [haddress] at hplace
    exact ⟨⟨key⟩, row, hplace, hkey, hpresent⟩
  · rintro ⟨vertex, row, hkey, hrow, hpresent⟩
    obtain ⟨haddress, hid⟩ := vertex_fields hsha ht hkey hrow
    exact ⟨row, mem_objectRows.mpr ⟨⟨_, hrow⟩, haddress, hpresent⟩, hid⟩

/-- Without a present object there is no walk. -/
lemma alone_neighborhood_absent (hsha : CollisionFree env) (ht : Sound env db.tables)
    (h : store.Readable env g db.tables) {id : String} (habsent : ¬ db.tables.HasObject g id)
    (depth : Int) : alone sdk i (neighborhood env id depth) store db =
      (((vertexKey env g id).map fun _ => ([], []), store), db) := by
  unfold neighborhood
  simp only [alone_bind, alone_assertReadable hsha ht.toPlaced h, aloneThen_ok,
    alone_getObject hsha ht.toPlaced h id]
  cases hkey : vertexKey env g id with
  | error e => rfl
  | ok vertex =>
    have hnone : presentObject env (db.tables.vertex.lookup vertex.key) =
        (.ok none : Except PyErr (Option (Object F X))) := by
      cases hrow : db.tables.vertex.lookup vertex.key with
      | none => rfl
      | some row =>
        have hnot : ¬ row.objectPresent = true := fun hin =>
          habsent ((hasObject_iff ht.toPlaced hsha id).mpr ⟨vertex, row, hkey, hrow, hin⟩)
        simp [presentObject, hnot]
    simp only [Except.bind, hnone, aloneThen_ok, alone_pure]
    rfl

variable (sdk i) in
/-- From a present object the walk finds what a walk of the depth covers. -/
lemma alone_neighborhood (hsha : CollisionFree env) (hscan : sdk.Permutes)
    (ht : Sound env db.tables) (h : store.Readable env g db.tables) {id : String}
    (hin : db.tables.HasObject g id) (depth : Int) :
    ∃ w objs rels, Walk.Covers db.tables g id depth.toNat w ∧
      alone sdk i (neighborhood env id depth) store db = ((.ok (objs, rels), store), db) ∧
      List.Forall₂ (fun row obj => objectFromRow env row = .ok obj)
        (foundObjects db.tables g w.seenObjs) objs ∧
      List.Forall₂ (fun row rel => relationFromRow env row = .ok rel)
        (foundRelations sdk db.tables g w.seenRels) rels := by
  obtain ⟨vertex, row, hkey, hrow, hpresent⟩ := (hasObject_iff ht.toPlaced hsha id).mp hin
  obtain ⟨obj, hobj⟩ := ht.object _ _ hrow hpresent
  have hfound : presentObject env (db.tables.vertex.lookup vertex.key) = .ok (some obj) := by
    simp [presentObject, hrow, hpresent, hobj, Except.map]
  have hwalk : ∃ w, alone sdk i (walk depth.toNat ⟨[id], [id], []⟩) store db =
      ((.ok w, store), db) ∧ w.Covers db.tables g id (0 + depth.toNat) :=
    alone_walk h.toAt after_start
  rw [Nat.zero_add] at hwalk
  obtain ⟨w, hwalk, hcovers⟩ := hwalk
  have hobjects : ∀ row ∈ foundObjects db.tables g w.seenObjs,
      ∃ obj, objectFromRow env row = .ok (obj : Object F X) := by
    intro row hrow
    obtain ⟨⟨key, hlookup⟩, -, hrowPresent⟩ := mem_objectRows.mp (mem_foundObjects.mp hrow).1
    exact ht.object key row hlookup hrowPresent
  have hrelations : ∀ row ∈ foundRelations sdk db.tables g w.seenRels,
      ∃ rel, relationFromRow env row = .ok (rel : Relation F X) := by
    intro row hrow
    obtain ⟨⟨key, hlookup⟩, -⟩ := mem_relationRows.mp ((mem_foundRelations hscan).mp hrow).1
    exact ht.rel key row hlookup
  obtain ⟨objs, hobjs, hall⟩ := mapM_ok hobjects
  obtain ⟨rels, hrels, hall'⟩ := mapM_ok hrelations
  refine ⟨w, objs, rels, hcovers, ?_, hall, hall'⟩
  unfold neighborhood
  simp only [alone_bind, alone_assertReadable hsha ht.toPlaced h, aloneThen_ok,
    alone_getObject hsha ht.toPlaced h id, hkey, Except.bind, hfound, hwalk,
    alone_objectsByLogicalIds h.toAt, alone_relationsByLogicalIds h.toAt, hobjs, hrels, alone_pure]

/-- The relation starts or ends nearer than the distance. -/
def Near (t : Tables) (g : String × String) (start : String) (k : Nat) (row : RelationRow) : Prop :=
  (t.graph g).edist start row.source < k ∨ (t.graph g).edist start row.target < k

lemma Walk.Covers.found_iff {k : Nat} {w : Walk} (h : w.Covers t g start k) (ht : Placed env t)
    (hscan : sdk.Permutes) {row : RelationRow} : row ∈ foundRelations sdk t g w.seenRels ↔
      row ∈ t.relationRows g.1 g.2 ∧ Near t g start k row := by
  rw [mem_foundRelations hscan]
  refine and_congr_right fun hrow => ?_
  rw [h.rels]
  constructor
  · rintro ⟨row', hrow', hid, hends⟩
    rw [relationRow_unique ht hrow hrow' hid.symm]
    exact hends
  · intro hends
    exact ⟨row, hrow, rfl, hends⟩

/-- A neighborhood is the ball around a present object and the relations that start or end
nearer than its depth. It raises only when the id has no key. -/
theorem neighborhood_exact (hsha : CollisionFree env) (hscan : sdk.Permutes)
    (ht : Sound env db.tables) (h : store.Readable env g db.tables) (id : String) (depth : Int) :
    ∃ objs rels, alone sdk i (neighborhood env id depth) store db =
        (((vertexKey env g id).map fun _ => (objs, rels), store), db) ∧
      (objs.map (·.id)).Nodup ∧ (rels.map (·.id)).Nodup ∧
      (¬ db.tables.HasObject g id → objs = [] ∧ rels = []) ∧
      (db.tables.HasObject g id →
        (∀ obj, obj ∈ objs ↔ ∃ row ∈ db.tables.objectRows g.1 g.2,
          objectFromRow env row = .ok obj ∧
          (db.tables.graph g).edist id row.objectId ≤ depth.toNat) ∧
        ∀ rel, rel ∈ rels ↔ ∃ row ∈ db.tables.relationRows g.1 g.2,
          relationFromRow env row = .ok rel ∧
          ((db.tables.graph g).edist id row.source < depth.toNat ∨
            (db.tables.graph g).edist id row.target < depth.toNat)) := by
  by_cases hin : db.tables.HasObject g id
  · obtain ⟨w, objs, rels, hcovers, hrun, hobjs, hrels⟩ :=
      alone_neighborhood sdk i hsha hscan ht h hin depth
    obtain ⟨vertex, -, hkey, -⟩ := (hasObject_iff ht.toPlaced hsha id).mp hin
    refine ⟨objs, rels, ?_, ?_, ?_, fun hout => absurd hin hout, fun _ => ⟨?_, ?_⟩⟩
    · rw [hrun, hkey]
      rfl
    · rw [forall₂_map_eq (fun _ _ => objectFromRow_id) hobjs]
      exact nodup_foundObjects ht.toPlaced _
    · rw [forall₂_map_eq (fun _ _ => relationFromRow_id) hrels]
      exact nodup_foundRelations hscan ht.toPlaced _
    · intro obj
      rw [forall₂_mem_iff hobjs obj]
      simp only [mem_foundObjects, hcovers.seen, and_assoc, and_comm]
    · intro rel
      rw [forall₂_mem_iff hrels rel]
      simp only [hcovers.found_iff ht.toPlaced hscan, and_assoc, and_comm]
      rfl
  · refine ⟨[], [], alone_neighborhood_absent hsha ht h hin depth, List.nodup_nil, List.nodup_nil,
      fun _ => ⟨rfl, rfl⟩, fun h => absurd h hin⟩

/-! ### The order of relations -/

/-- Relations come in the order of `all_relations` from `find_relations` and from the
neighborhood. -/
def SameOrder (env : Env F X) (sdk : Sdk) (i : Nat) (store : GraphStore) (db : Database)
    (id : String) (depth : Int) : Prop :=
  ∃ all, alone sdk i (allRelations env) store db = ((.ok all, store), db) ∧
    all.Pairwise (fun a b => a.id ≤ b.id) ∧
    (∀ source target relationType rels,
      (alone sdk i (findRelations env source target relationType) store db).1.1 = .ok rels →
        rels.Sublist all) ∧
    ∀ objs rels, (alone sdk i (neighborhood env id depth) store db).1.1 = .ok (objs, rels) →
      rels.Sublist all

variable (sdk i) in
lemma alone_allRelations (hsha : CollisionFree env) (ht : Sound env db.tables)
    (h : store.Readable env g db.tables) : ∃ all,
      alone sdk i (allRelations env) store db = ((.ok all, store), db) ∧
      all.Pairwise (fun a b => a.id < b.id) ∧
      ∀ rel, rel ∈ all ↔ ∃ row ∈ db.tables.relationRows g.1 g.2,
        relationFromRow env row = .ok rel := by
  obtain ⟨all, hrun, hsorted, hmem⟩ :=
    alone_sortedRelations sdk i ht h.toAt (.matching none none none)
  refine ⟨all, ?_, hsorted, fun rel => ?_⟩
  · unfold allRelations
    simp only [alone_bind, alone_assertReadable hsha ht.toPlaced h, aloneThen_ok, hrun]
  · rw [hmem rel]
    simp [RelationFilter.accepts]

/-- The sorted reads keep the order. -/
lemma sublist_findRelations (hsha : CollisionFree env) (ht : Sound env db.tables)
    (h : store.Readable env g db.tables) {all : List (Relation F X)}
    (hsorted : all.Pairwise fun a b => a.id < b.id)
    (hmem : ∀ rel, rel ∈ all ↔ ∃ row ∈ db.tables.relationRows g.1 g.2,
      relationFromRow env row = .ok rel) {source target relationType : Option String}
    {rels : List (Relation F X)}
    (hrels : (alone sdk i (findRelations env source target relationType) store db).1.1 = .ok rels) :
    rels.Sublist all := by
  obtain ⟨rels', hrun, hsorted', hmem'⟩ :=
    alone_sortedRelations sdk i ht h.toAt (.matching source target relationType)
  unfold findRelations at hrels
  simp only [alone_bind, alone_assertReadable hsha ht.toPlaced h, aloneThen_ok, hrun] at hrels
  obtain rfl := Except.ok.inj hrels
  refine Records.sublist_of_increasing hsorted' hsorted fun rel hrel => ?_
  obtain ⟨row, hrow, hrel, -⟩ := (hmem' rel).mp hrel
  exact (hmem rel).mpr ⟨row, hrow, hrel⟩

/-- At most one relation is found. -/
def Single (t : Tables) (g : String × String) (id : String) (depth : Int) : Prop :=
  t.HasObject g id → ∀ row ∈ t.relationRows g.1 g.2, ∀ row' ∈ t.relationRows g.1 g.2,
    Near t g id depth.toNat row → Near t g id depth.toNat row' → row = row'

lemma sameOrder_of_single (hsha : CollisionFree env) (hscan : sdk.Permutes)
    (ht : Sound env db.tables) (h : store.Readable env g db.tables) {id : String} {depth : Int}
    (hsingle : Single db.tables g id depth) : SameOrder env sdk i store db id depth := by
  obtain ⟨all, hall, hsorted, hmem⟩ := alone_allRelations sdk i hsha ht h
  refine ⟨all, hall, hsorted.imp le_of_lt, ?_, ?_⟩
  · intro source target relationType rels hrels
    exact sublist_findRelations hsha ht h hsorted hmem hrels
  · intro objs rels hrels
    by_cases hin : db.tables.HasObject g id
    · obtain ⟨w, objs', rels', hcovers, hrun, -, hfound⟩ :=
        alone_neighborhood sdk i hsha hscan ht h hin depth
      rw [hrun] at hrels
      obtain ⟨rfl, rfl⟩ := Prod.mk.inj (Except.ok.inj hrels)
      have hids : rels'.map (·.id) = (foundRelations sdk db.tables g w.seenRels).map
          (·.relationId) := forall₂_map_eq (fun _ _ => relationFromRow_id) hfound
      have hnodup : (rels'.map (·.id)).Nodup := by
        rw [hids]
        exact nodup_foundRelations hscan ht.toPlaced _
      rw [List.Nodup, List.pairwise_map] at hnodup
      have hrow : ∀ rel ∈ rels', ∃ row ∈ db.tables.relationRows g.1 g.2,
          Near db.tables g id depth.toNat row ∧ relationFromRow env row = .ok rel := by
        intro rel hrel
        obtain ⟨row, hrow, hrel⟩ := (forall₂_mem_iff hfound rel).mp hrel
        obtain ⟨hrow, hnear⟩ := (hcovers.found_iff ht.toPlaced hscan).mp hrow
        exact ⟨row, hrow, hnear, hrel⟩
      refine Records.sublist_of_increasing (hnodup.imp_of_mem ?_) hsorted ?_
      · intro a b ha hb hne
        obtain ⟨row, hrowMem, hnear, hrel⟩ := hrow a ha
        obtain ⟨row', hrowMem', hnear', hrel'⟩ := hrow b hb
        obtain rfl := hsingle hin row hrowMem row' hrowMem' hnear hnear'
        obtain rfl := Except.ok.inj (hrel.symm.trans hrel')
        exact absurd rfl hne
      · intro rel hrel
        obtain ⟨row, hrowMem, -, hrel⟩ := hrow rel hrel
        exact (hmem rel).mpr ⟨row, hrowMem, hrel⟩
    · rw [alone_neighborhood_absent hsha ht h hin depth] at hrels
      cases hkey : vertexKey env g id with
      | error e =>
        rw [hkey] at hrels
        cases hrels
      | ok vertex =>
        rw [hkey] at hrels
        obtain ⟨-, rfl⟩ := Prod.mk.inj (Except.ok.inj hrels)
        exact List.nil_sublist _

/-- A database that returns rows from the last relation id to the first. -/
def descending (rows : List RelationRow) : List RelationRow :=
  (rows.insertionSort fun a b => relationLE a b).reverse

lemma permutes_descending : Sdk.Permutes { sdk with scan := descending } := fun rows =>
  (List.reverse_perm _).trans (List.perm_insertionSort _ rows)

lemma single_of_sameOrder (hsha : CollisionFree env) (ht : Sound env db.tables)
    (h : store.Readable env g db.tables) {id : String} {depth : Int}
    (horder : SameOrder env { sdk with scan := descending } i store db id depth) :
    Single db.tables g id depth := by
  intro hin row hrow row' hrow' hnear hnear'
  have hscan : Sdk.Permutes { sdk with scan := descending } := permutes_descending
  obtain ⟨w, objs, rels, hcovers, hrun, -, hfound⟩ :=
    alone_neighborhood { sdk with scan := descending } i hsha hscan ht h hin depth
  obtain ⟨all, -, hsorted, -, hneighborhood⟩ := horder
  have hsublist : rels.Sublist all := hneighborhood objs rels (by rw [hrun])
  let rows := foundRelations { sdk with scan := descending } db.tables g w.seenRels
  have hids : rels.map (·.id) = rows.map (·.relationId) :=
    forall₂_map_eq (fun _ _ => relationFromRow_id) hfound
  have hup : (rows.map (·.relationId)).Pairwise (· ≤ ·) := by
    rw [← hids, List.pairwise_map]
    exact hsorted.sublist hsublist
  have hdown : (rows.map (·.relationId)).Pairwise (· ≥ ·) := by
    rw [List.pairwise_map]
    unfold rows foundRelations descending
    split
    · exact List.Pairwise.nil
    · rw [List.pairwise_reverse]
      exact pairwise_sortedRelations _
  have hequal : (rows.map (·.relationId)).Pairwise (· = ·) :=
    hup.imp₂ (fun _ _ hle hge => le_antisymm hle hge) hdown
  have hall := hequal.forall_of_forall fun _ _ => rfl
  have hmem : row ∈ rows := (hcovers.found_iff ht.toPlaced hscan).mpr ⟨hrow, hnear⟩
  have hmem' : row' ∈ rows := (hcovers.found_iff ht.toPlaced hscan).mpr ⟨hrow', hnear'⟩
  exact relationRow_unique ht.toPlaced hrow hrow'
    (hall (List.mem_map_of_mem hmem) (List.mem_map_of_mem hmem'))

/-- Whatever order the database chooses, the relations come in one order exactly when the
neighborhood has at most one. -/
theorem same_order_iff_single (hsha : CollisionFree env) (ht : Sound env db.tables)
    (h : store.Readable env g db.tables) (id : String) (depth : Int) :
    (∀ scan, Sdk.Permutes { sdk with scan } →
      SameOrder env { sdk with scan } i store db id depth) ↔ Single db.tables g id depth :=
  ⟨fun horder => single_of_sameOrder hsha ht h (horder descending permutes_descending),
    fun hsingle _ hscan => sameOrder_of_single hsha hscan ht h hsingle⟩

end GraphStore

/-! ### Two parallel relations -/

/-- The key of a record, if it has one. -/
def keyOf {table : Table} (record : Except PyErr (RecordId table)) : String :=
  (record.toOption.getD ⟨""⟩).key

/-- The graph store of a run in the reference environment. -/
def referenceGraph (g : String × String) : GraphStore where
  scope := g.1
  runId := g.2
  closed := false
  rebuildingHere := false
  projectionRecord := ⟨keyOf (projectionKey (reference Unit) g)⟩

def referenceVertex (id : String) : String := keyOf (vertexKey (reference Unit) ("s", "r") id)

def parallelRow (id : String) : RelationRow where
  relationId := id
  source := "a"
  target := "b"
  relationType := "link"
  dataJson := "{}"
  provenanceJson := "{}"
  scope := "s"
  runId := "r"
  inKey := referenceVertex "a"
  outKey := referenceVertex "b"

def parallelRelation (id : String) : Write :=
  .relation (keyOf (relationKey (reference Unit) ("s", "r") id)) (some (parallelRow id))

/-- A ready projection of one object and two relations to an absent one. -/
def parallelWrites : List Write := [
  .projection (referenceGraph ("s", "r")).projectionRecord.key (some ⟨"s", "r", "ready", none⟩),
  .vertex (referenceVertex "a")
    (some ⟨"s", "r", "a", true, some 0, some "node", some "{}", some 1, some "{}"⟩),
  .vertex (referenceVertex "b") (some ((referenceGraph ("s", "r")).placeholderRow "b" 0)),
  parallelRelation "r1", parallelRelation "r2"]

def parallelDatabase : Database :=
  { freshDatabase with tables := (engine referenceSdk).applyAll parallelWrites Tables.empty }

lemma bound_parallelRelation (id : String)
    (hkey : relationKey (reference Unit) ("s", "r") id =
      .ok ⟨keyOf (relationKey (reference Unit) ("s", "r") id)⟩) :
    (parallelRelation id).Bound (reference Unit) ("s", "r") := by
  have hloads : loads (reference Unit) "{}" = .ok (.obj []) := rfl
  have hlegible : (parallelRow id).Legible (reference Unit) := by
    refine ⟨⟨id, "a", "b", "link", plain (.obj []), plain (.obj [])⟩, ?_⟩
    unfold GraphStore.relationFromRow recordToRelation parallelRow
    simp only [hloads]
    rfl
  refine ⟨⟨id, hkey, ?_⟩, hlegible⟩
  intro row hrow
  obtain rfl := Option.some.inj hrow
  exact ⟨rfl, rfl, rfl, rfl⟩

lemma sound_parallel : Sound (reference Unit) parallelDatabase.tables := by
  have hbound : ∀ w ∈ parallelWrites, w.Bound (reference Unit) ("s", "r") := by
    intro w hw
    simp only [parallelWrites, List.mem_cons, List.not_mem_nil, or_false] at hw
    rcases hw with rfl | rfl | rfl | rfl | rfl
    · refine ⟨⟨rfl, ?_⟩, trivial⟩
      intro row hrow
      obtain rfl := Option.some.inj hrow
      rfl
    · refine ⟨⟨"a", rfl, ?_⟩, fun _ => ⟨_, rfl⟩⟩
      intro row hrow
      obtain rfl := Option.some.inj hrow
      exact ⟨rfl, rfl⟩
    · refine ⟨⟨"b", rfl, ?_⟩, nofun⟩
      intro row hrow
      obtain rfl := Option.some.inj hrow
      exact ⟨rfl, rfl⟩
    · exact bound_parallelRelation "r1" rfl
    · exact bound_parallelRelation "r2" rfl
  exact (kept_bound reference_collisionFree referenceSdk _).applyAll sound_empty hbound

lemma readable_parallel : (referenceGraph ("s", "r")).Readable (reference Unit) ("s", "r")
    parallelDatabase.tables := by
  refine ⟨⟨rfl, rfl⟩, rfl, ⟨⟨"s", "r", "ready", none⟩, rfl, .inl rfl⟩⟩

lemma hasObject_parallel : parallelDatabase.tables.HasObject ("s", "r") "a" :=
  (GraphStore.hasObject_iff sound_parallel.toPlaced reference_collisionFree "a").mpr
    ⟨⟨referenceVertex "a"⟩, _, rfl, rfl, rfl⟩

lemma near_parallel {id : String}
    (hlookup : parallelDatabase.tables.relation.lookup
      (keyOf (relationKey (reference Unit) ("s", "r") id)) = some (parallelRow id)) :
    parallelRow id ∈ parallelDatabase.tables.relationRows "s" "r" ∧
      GraphStore.Near parallelDatabase.tables ("s", "r") "a" 1 (parallelRow id) := by
  have hstart : (parallelDatabase.tables.graph ("s", "r")).edist "a" (parallelRow id).source < 1 := by
    change (parallelDatabase.tables.graph ("s", "r")).edist "a" "a" < 1
    rw [SimpleGraph.edist_self]
    exact zero_lt_one
  exact ⟨GraphStore.mem_relationRows.mpr ⟨⟨_, hlookup⟩, rfl⟩, .inl (by exact_mod_cast hstart)⟩

theorem neighborhood_exact_parallel : ∃ objs rels,
    alone referenceSdk 0 (GraphStore.neighborhood (reference Unit) "a" 1) (referenceGraph ("s", "r"))
        parallelDatabase =
      (((vertexKey (reference Unit) ("s", "r") "a").map fun _ => (objs, rels),
        referenceGraph ("s", "r")), parallelDatabase) ∧
    (objs.map (·.id)).Nodup ∧ (rels.map (·.id)).Nodup ∧
    (¬ parallelDatabase.tables.HasObject ("s", "r") "a" → objs = [] ∧ rels = []) ∧
    (parallelDatabase.tables.HasObject ("s", "r") "a" →
      (∀ obj, obj ∈ objs ↔ ∃ row ∈ parallelDatabase.tables.objectRows "s" "r",
        objectFromRow (reference Unit) row = .ok obj ∧
        (parallelDatabase.tables.graph ("s", "r")).edist "a" row.objectId ≤ (1 : Int).toNat) ∧
      ∀ rel, rel ∈ rels ↔ ∃ row ∈ parallelDatabase.tables.relationRows "s" "r",
        GraphStore.relationFromRow (reference Unit) row = .ok rel ∧
        ((parallelDatabase.tables.graph ("s", "r")).edist "a" row.source < (1 : Int).toNat ∨
          (parallelDatabase.tables.graph ("s", "r")).edist "a" row.target < (1 : Int).toNat)) :=
  GraphStore.neighborhood_exact reference_collisionFree (fun rows => List.Perm.refl rows)
    sound_parallel readable_parallel "a" 1

theorem same_order_iff_single_parallel :
    (∀ scan, Sdk.Permutes { referenceSdk with scan } →
      GraphStore.SameOrder (reference Unit) { referenceSdk with scan } 0 (referenceGraph ("s", "r"))
        parallelDatabase "a" 1) ↔
    GraphStore.Single parallelDatabase.tables ("s", "r") "a" 1 :=
  GraphStore.same_order_iff_single reference_collisionFree sound_parallel readable_parallel "a" 1

/-- The neighborhood of the object lists the two relations in the other order. -/
theorem neighborhood_reorders : ¬ GraphStore.SameOrder (reference Unit)
    { referenceSdk with scan := GraphStore.descending } 0 (referenceGraph ("s", "r"))
    parallelDatabase "a" 1 := by
  intro horder
  have hsingle := GraphStore.single_of_sameOrder reference_collisionFree sound_parallel
    readable_parallel horder
  have hfirst : parallelDatabase.tables.relation.lookup
      (keyOf (relationKey (reference Unit) ("s", "r") "r1")) = some (parallelRow "r1") := rfl
  have hsecond : parallelDatabase.tables.relation.lookup
      (keyOf (relationKey (reference Unit) ("s", "r") "r2")) = some (parallelRow "r2") := rfl
  have hsame := hsingle hasObject_parallel _ (near_parallel hfirst).1 _ (near_parallel hsecond).1
    (near_parallel hfirst).2 (near_parallel hsecond).2
  exact absurd hsame (by decide)

end ActiveGraphSurreal
