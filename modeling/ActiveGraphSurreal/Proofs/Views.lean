import ActiveGraphSurreal.Proofs.Neighborhood
import Mathlib.Data.Int.ConditionallyCompleteOrder
import Mathlib.Data.Prod.Lex
import Mathlib.Order.WithBot

/-!
# The objects of a projection

The present objects of a run as one list in the order of the projection. What the readers of
objects return is a part of it.
-/

namespace ActiveGraphSurreal

open Library

set_option linter.unusedSectionVars false

/-! ### The order of the rows -/

/-- A missing counter comes before every counter. -/
def seqRank : Option Int → WithBot Int
  | none => ⊥
  | some n => (n : WithBot Int)

lemma seqRank_injective : Function.Injective seqRank := by
  intro m n h
  cases m with
  | none =>
    cases n with
    | none => rfl
    | some n => exact absurd h.symm (WithBot.coe_ne_bot)
  | some m =>
    cases n with
    | none => exact absurd h (WithBot.coe_ne_bot)
    | some n => rw [WithBot.coe_inj.mp h]

lemma seqLE_iff (m n : Option Int) : seqLE m n ↔ seqRank m ≤ seqRank n := by
  cases m with
  | none => simp [seqLE, seqRank]
  | some m =>
    cases n with
    | none => simp [seqLE, seqRank]
    | some n => simp [seqLE, seqRank]

/-- What the rows of a run are sorted by. -/
def VertexRow.rank (row : VertexRow) : Lex (WithBot Int × String) :=
  toLex (seqRank row.objectSeq, row.objectId)

lemma objectLE_iff (a b : VertexRow) : objectLE a b ↔ a.rank ≤ b.rank := by
  unfold objectLE VertexRow.rank
  rw [Prod.Lex.toLex_le_toLex]
  by_cases hseq : a.objectSeq = b.objectSeq
  · simp [hseq]
  · have hne : seqRank a.objectSeq ≠ seqRank b.objectSeq :=
      fun h => hseq (seqRank_injective h)
    rw [if_neg hseq, seqLE_iff]
    simp [hne, le_iff_lt_or_eq]

variable {F X : Type} [Json.ScalarText F] {env : Env F X} {t : Tables} {g : String × String}

lemma mem_selectedObjects {filter : ObjectFilter} {row : VertexRow} :
    row ∈ t.selectedObjects g filter ↔ row ∈ t.objectRows g.1 g.2 ∧ filter.accepts row := by
  unfold Tables.selectedObjects
  rw [List.mem_insertionSort, List.mem_filter]

/-- The rows come in increasing rank. -/
lemma pairwise_selectedObjects (ht : Placed env t) (filter : ObjectFilter) :
    (t.selectedObjects g filter).Pairwise fun a b => a.rank < b.rank := by
  have htotal : Std.Total fun a b : VertexRow => objectLE a b = true := by
    refine ⟨fun a b => ?_⟩
    simp only [objectLE_iff]
    exact le_total a.rank b.rank
  have htrans : IsTrans VertexRow fun a b => objectLE a b = true := by
    refine ⟨fun a b c => ?_⟩
    simp only [objectLE_iff]
    exact le_trans
  have hsorted : (t.selectedObjects g filter).Pairwise fun a b => a.rank ≤ b.rank := by
    refine (List.pairwise_insertionSort (fun a b : VertexRow => objectLE a b = true) _).imp ?_
    intro a b hab
    exact (objectLE_iff a b).mp hab
  refine Records.increasing_of_nodup hsorted ?_
  have hperm := List.perm_insertionSort (fun a b : VertexRow => objectLE a b = true)
    ((t.objectRows g.1 g.2).filter filter.accepts)
  have hids : ((t.selectedObjects g filter).map (·.objectId)).Nodup :=
    (hperm.map _).nodup_iff.mpr
      ((GraphStore.nodup_objectRows ht g).sublist (List.filter_sublist.map _))
  have hranks : ((t.selectedObjects g filter).map VertexRow.rank).map (fun r => (ofLex r).2) =
      (t.selectedObjects g filter).map (·.objectId) := by
    rw [List.map_map]
    rfl
  rw [← hranks] at hids
  exact hids.of_map _

/-- A filter picks from the rows without changing their order. -/
lemma selectedObjects_eq_filter (ht : Placed env t) (filter : ObjectFilter) :
    t.selectedObjects g filter = (t.selectedObjects g .any).filter filter.accepts := by
  have hall := pairwise_selectedObjects (g := g) ht .any
  have hmem : ∀ row, row ∈ t.selectedObjects g filter ↔
      row ∈ (t.selectedObjects g .any).filter filter.accepts := by
    intro row
    rw [List.mem_filter, mem_selectedObjects, mem_selectedObjects]
    simp [ObjectFilter.accepts]
  exact Records.eq_of_increasing (pairwise_selectedObjects ht filter) (hall.filter _) hmem

/-! ### The objects -/

variable (env t g) in
/-- The present objects of a run, in the order of the projection. -/
def Tables.objects : List (Object F X) :=
  (t.selectedObjects g .any).filterMap fun row => (objectFromRow env row).toOption

/-- The objects that a filter picks. -/
def ObjectFilter.picks (obj : Object F X) : ObjectFilter → Bool
  | any => true
  | ofType objectType => obj.type = objectType
  | inTypes types => types.any fun t => obj.type = t
  | withIds ids => obj.id ∈ ids

lemma objectFromRow_type {row : VertexRow} {obj : Object F X}
    (h : objectFromRow env row = .ok obj) : row.objectType = some obj.type := by
  obtain ⟨objectType, htype, h⟩ := bind_eq_ok.mp h
  obtain ⟨_, -, h⟩ := bind_eq_ok.mp h
  obtain ⟨_, -, h⟩ := bind_eq_ok.mp h
  obtain ⟨_, -, h⟩ := bind_eq_ok.mp h
  obtain ⟨_, -, h⟩ := bind_eq_ok.mp h
  obtain ⟨_, -, h⟩ := bind_eq_ok.mp h
  obtain rfl := pure_eq_ok.mp h
  unfold required at htype
  split at htype
  · next a ha => rw [ha, Except.ok.inj htype]
  · cases htype

lemma accepts_eq_picks {row : VertexRow} {obj : Object F X} (h : objectFromRow env row = .ok obj)
    (filter : ObjectFilter) : filter.accepts row = filter.picks obj := by
  cases filter with
  | any => rfl
  | ofType objectType => simp [ObjectFilter.accepts, ObjectFilter.picks, objectFromRow_type h]
  | inTypes types => simp [ObjectFilter.accepts, ObjectFilter.picks, objectFromRow_type h]
  | withIds ids => simp [ObjectFilter.accepts, ObjectFilter.picks, GraphStore.objectFromRow_id h]

/-! ### Lists read row by row -/

section rows

variable {R A : Type} {f : R → Except PyErr A} {rows : List R} {as : List A}

lemma forall₂_filterMap (h : ∀ row ∈ rows, ∃ a, f row = .ok a) :
    List.Forall₂ (fun row a => f row = .ok a) rows
      (rows.filterMap fun row => (f row).toOption) := by
  induction rows with
  | nil => exact .nil
  | cons row rows ih =>
    obtain ⟨a, ha⟩ := h row (List.mem_cons_self ..)
    have hrest := ih fun row' hrow' => h row' (List.mem_cons_of_mem _ hrow')
    have hsome : (f row).toOption = some a := by
      rw [ha]
      rfl
    rw [List.filterMap_cons, hsome]
    exact .cons ha hrest

lemma mapM_of_forall₂ (h : List.Forall₂ (fun row a => f row = .ok a) rows as) :
    rows.mapM f = .ok as := by
  induction h with
  | nil => rfl
  | cons hrow _ ih =>
    rw [List.mapM_cons, hrow, ih]
    rfl

lemma forall₂_filter {p : R → Bool} {q : A → Bool} (hpq : ∀ row a, f row = .ok a → p row = q a)
    (h : List.Forall₂ (fun row a => f row = .ok a) rows as) :
    List.Forall₂ (fun row a => f row = .ok a) (rows.filter p) (as.filter q) := by
  induction h with
  | nil => exact .nil
  | @cons row a rows as hrow _ ih =>
    rw [List.filter_cons, List.filter_cons, hpq row a hrow]
    split
    · exact .cons hrow ih
    · exact ih

lemma limited_prefix (limit : Option Int) (rows : List R) : limited limit rows <+: rows := by
  cases limit with
  | none => exact List.prefix_rfl
  | some n => exact List.take_prefix _ rows

lemma forall₂_limited {limit : Option Int} (h : List.Forall₂ (fun row a => f row = .ok a) rows as) :
    List.Forall₂ (fun row a => f row = .ok a) (limited limit rows) (limited limit as) := by
  cases limit with
  | none => exact h
  | some n => exact List.forall₂_take n.toNat h

end rows

lemma forall₂_objects (ht : Sound env t) (g : String × String) :
    List.Forall₂ (fun row obj => objectFromRow env row = .ok obj) (t.selectedObjects g .any)
      (t.objects env g) := by
  apply forall₂_filterMap
  intro row hrow
  obtain ⟨⟨key, hlookup⟩, -, hpresent⟩ :=
    GraphStore.mem_objectRows.mp (mem_selectedObjects.mp hrow).1
  exact ht.object key row hlookup hpresent

lemma forall₂_selected (ht : Sound env t) (filter : ObjectFilter) :
    List.Forall₂ (fun row obj => objectFromRow env row = .ok obj) (t.selectedObjects g filter)
      ((t.objects env g).filter filter.picks) := by
  rw [selectedObjects_eq_filter ht.toPlaced]
  exact forall₂_filter (fun _ _ h => accepts_eq_picks h filter) (forall₂_objects ht g)

lemma mem_objects (ht : Sound env t) {obj : Object F X} : obj ∈ t.objects env g ↔
    ∃ row ∈ t.objectRows g.1 g.2, objectFromRow env row = .ok obj := by
  rw [GraphStore.forall₂_mem_iff (forall₂_objects ht g)]
  simp [mem_selectedObjects, ObjectFilter.accepts]

lemma map_id_objects (ht : Sound env t) (g : String × String) :
    (t.objects env g).map (·.id) = (t.selectedObjects g .any).map (·.objectId) :=
  GraphStore.forall₂_map_eq (fun _ _ => GraphStore.objectFromRow_id) (forall₂_objects ht g)

lemma nodup_objects (ht : Sound env t) (g : String × String) :
    ((t.objects env g).map (·.id)).Nodup := by
  rw [map_id_objects ht g]
  have hperm := List.perm_insertionSort (fun a b : VertexRow => objectLE a b = true)
    ((t.objectRows g.1 g.2).filter ObjectFilter.any.accepts)
  exact (hperm.map _).nodup_iff.mpr
    ((GraphStore.nodup_objectRows ht.toPlaced g).sublist (List.filter_sublist.map _))

namespace GraphStore

variable {sdk : Sdk} {i : Nat} {store : GraphStore} {db : Database}

/-! ### The readers of objects -/

lemma alone_select (ht : Sound env db.tables) (h : store.At env g) (filter : ObjectFilter)
    {limit : Option Int} (hlimit : sdk.Takes limit) :
    alone sdk i (selectObjects env filter limit) store db =
      ((.ok (limited limit ((db.tables.objects env g).filter filter.picks)), store), db) := by
  rw [alone_selectObjects h filter hlimit,
    mapM_of_forall₂ (forall₂_limited (forall₂_selected ht filter))]

theorem alone_allObjects (hsha : CollisionFree env) (ht : Sound env db.tables)
    (h : store.Readable env g db.tables) :
    alone sdk i (allObjects env) store db = ((.ok (db.tables.objects env g), store), db) := by
  have hall : allObjects env = (do
      assertReadable
      selectObjects env .any none : Py GraphStore (List (Object F X))) := rfl
  rw [hall, alone_bind, alone_assertReadable hsha ht.toPlaced h, aloneThen_ok,
    alone_select ht h.toAt .any (takes_none sdk)]
  have hpicks : (db.tables.objects env g).filter ObjectFilter.any.picks = db.tables.objects env g :=
    List.filter_eq_self.mpr fun _ _ => rfl
  rw [hpicks]
  rfl

theorem alone_findObjects (hsha : CollisionFree env) (ht : Sound env db.tables)
    (h : store.Readable env g db.tables) (objectType : Option String) :
    alone sdk i (findObjects env objectType) store db =
      ((.ok ((db.tables.objects env g).filter (objectFilter objectType).picks), store), db) := by
  unfold findObjects
  rw [alone_bind, alone_assertReadable hsha ht.toPlaced h, aloneThen_ok,
    alone_select ht h.toAt _ (takes_none sdk)]
  rfl

theorem alone_findObjectsInTypes (hsha : CollisionFree env) (ht : Sound env db.tables)
    (h : store.Readable env g db.tables) (types : List String) :
    alone sdk i (findObjectsInTypes env types) store db =
      ((.ok ((db.tables.objects env g).filter fun obj => obj.type ∈ types), store), db) := by
  have hpicks : (db.tables.objects env g).filter
      (ObjectFilter.inTypes types.eraseDups).picks =
      (db.tables.objects env g).filter fun obj => obj.type ∈ types := by
    apply List.filter_congr
    intro obj _
    rw [Bool.eq_iff_iff, decide_eq_true_eq]
    unfold ObjectFilter.picks
    rw [List.any_eq_true]
    simp [List.mem_eraseDups]
  cases types with
  | nil =>
    have hnone : (db.tables.objects env g).filter (fun obj => obj.type ∈ ([] : List String)) = [] :=
      List.filter_eq_nil_iff.mpr (by simp)
    rw [hnone]
    rfl
  | cons objectType types =>
    rw [← hpicks]
    change alone sdk i (do
      assertReadable
      selectObjects env (.inTypes (objectType :: types).eraseDups) none) store db = _
    rw [alone_bind, alone_assertReadable hsha ht.toPlaced h, aloneThen_ok,
      alone_select ht h.toAt _ (takes_none sdk)]
    rfl

lemma selectedObjects_isEmpty (ht : Sound env db.tables) (filter : ObjectFilter) :
    (((db.tables.objectRows g.1 g.2).filter filter.accepts).take 1).isEmpty =
      ((db.tables.objects env g).filter filter.picks).isEmpty := by
  have hlength := (forall₂_selected (g := g) ht filter).length_eq
  unfold Tables.selectedObjects at hlength
  rw [List.length_insertionSort] at hlength
  rw [Bool.eq_iff_iff, List.isEmpty_iff_length_eq_zero, List.isEmpty_iff_length_eq_zero, ← hlength,
    List.length_take]
  omega

/-- The answer to a query plan: a flag, or candidates and what is left to check. -/
def queryAnswer (objs : List (Object F X)) (plan : ObjectQuery F X) : ObjectQueryResult F X :=
  if plan.resultMode = "exists" ∧ (plan.where_.getD []).isEmpty then
    ⟨[], [], some !(objs.filter (objectFilter plan.type).picks).isEmpty⟩
  else
    ⟨limited (if (plan.where_.getD []).isEmpty then plan.limit else none)
      (objs.filter (objectFilter plan.type).picks), plan.where_.getD [], none⟩

theorem alone_queryObjects (hsha : CollisionFree env) (ht : Sound env db.tables)
    (h : store.Readable env g db.tables) {plan : ObjectQuery F X} (hlimit : sdk.Takes plan.limit) :
    alone sdk i (queryObjects env plan) store db =
      ((.ok (queryAnswer (db.tables.objects env g) plan), store), db) := by
  unfold queryObjects queryAnswer
  simp only
  rw [alone_bind, alone_assertReadable hsha ht.toPlaced h, aloneThen_ok]
  split
  · have haddress := h.address
    have hexec : Stmt.exec sdk (.selectObjects store.scope store.runId (objectFilter plan.type)
        false (some 1)) db.tables =
        .ok (((db.tables.objectRows store.scope store.runId).filter
          (objectFilter plan.type).accepts).take 1, []) := takeLimit_eq (takes_one sdk) _
    have hempty := selectedObjects_isEmpty (g := g) ht (objectFilter plan.type)
    rw [← haddress] at hempty ⊢
    unfold objectExists
    rw [alone_bind, alone_bind, alone_get, aloneThen_ok, alone_bind,
      alone_read sdk i store db hexec, aloneThen_ok, alone_pure, aloneThen_ok, alone_pure]
    rw [← hempty]
    rfl
  · have hlimit' : sdk.Takes (if (plan.where_.getD []).isEmpty then plan.limit else none) := by
      split
      · exact hlimit
      · exact takes_none sdk
    rw [alone_bind, alone_select ht h.toAt _ hlimit', aloneThen_ok, alone_pure]

variable (env) in
/-- A limit that is not pushed down makes no difference. -/
lemma queryObjects_unlimited {plan : ObjectQuery F X}
    (h : ¬((plan.where_.getD []).isEmpty ∧ plan.resultMode ≠ "exists")) :
    queryObjects env plan = queryObjects env { plan with limit := none } ∧
      ∀ objs : List (Object F X),
        queryAnswer objs plan = queryAnswer objs { plan with limit := none } := by
  unfold queryObjects queryAnswer
  by_cases hempty : (plan.where_.getD []).isEmpty
  · have hmode : plan.resultMode = "exists" := by
      by_contra hne
      exact h ⟨hempty, hne⟩
    simp [hempty, hmode]
  · simp [hempty]

/-- A limit that is pushed down can be refused. -/
lemma queryObjects_refused (hsha : CollisionFree env) (ht : Sound env db.tables)
    (h : store.Readable env g db.tables) {plan : ObjectQuery F X} (hlimit : ¬ sdk.Takes plan.limit)
    (hpushed : (plan.where_.getD []).isEmpty ∧ plan.resultMode ≠ "exists") :
    (alone sdk i (queryObjects env plan) store db).1.1 =
      .error (sdk.error (.badValue "LIMIT")) := by
  obtain ⟨n, hn, hrefused⟩ : ∃ n ∈ plan.limit, ¬(0 ≤ n ∧ n ≤ sdk.maxLimit) := by
    simpa only [Sdk.Takes, not_forall, exists_prop] using hlimit
  have hexec : Stmt.exec sdk (.selectObjects store.scope store.runId (objectFilter plan.type)
      true (if (plan.where_.getD []).isEmpty then plan.limit else none)) db.tables =
      .error (sdk.error (.badValue "LIMIT")) := by
    rw [if_pos hpushed.1, Option.mem_def.mp hn]
    exact if_pos (by omega)
  unfold queryObjects selectObjects
  simp only [hpushed.1, hpushed.2, if_false, false_and]
  rw [alone_bind, alone_assertReadable hsha ht.toPlaced h, aloneThen_ok, alone_bind, alone_bind,
    alone_get, aloneThen_ok, alone_bind, alone_refused hexec]
  rfl

/-- A query that returns, returns its answer. -/
lemma returned_queryObjects (hsha : CollisionFree env) (ht : Sound env db.tables)
    (h : store.Readable env g db.tables) {plan : ObjectQuery F X} {result : ObjectQueryResult F X}
    (hrun : (alone sdk i (queryObjects env plan) store db).1.1 = .ok result) :
    result = queryAnswer (db.tables.objects env g) plan := by
  by_cases hlimit : sdk.Takes plan.limit
  · rw [alone_queryObjects hsha ht h hlimit] at hrun
    exact (Except.ok.inj hrun).symm
  · by_cases hpushed : (plan.where_.getD []).isEmpty ∧ plan.resultMode ≠ "exists"
    · rw [queryObjects_refused hsha ht h hlimit hpushed] at hrun
      cases hrun
    · obtain ⟨hcode, hanswer⟩ := queryObjects_unlimited env hpushed
      rw [hcode, alone_queryObjects hsha ht h (takes_none sdk)] at hrun
      rw [hanswer]
      exact (Except.ok.inj hrun).symm

/-- The objects of a neighborhood keep the order of the projection. -/
theorem sublist_neighborhood (hsha : CollisionFree env) (hscan : sdk.Permutes)
    (ht : Sound env db.tables) (h : store.Readable env g db.tables) {id : String} {depth : Int}
    {objs : List (Object F X)} {rels : List (Relation F X)}
    (hrun : (alone sdk i (neighborhood env id depth) store db).1.1 = .ok (objs, rels)) :
    objs.Sublist (db.tables.objects env g) := by
  by_cases hin : db.tables.HasObject g id
  · obtain ⟨w, objs', rels', -, halone, hobjs, -⟩ :=
      alone_neighborhood sdk i hsha hscan ht h hin depth
    rw [halone] at hrun
    obtain ⟨rfl, rfl⟩ := Prod.mk.inj (Except.ok.inj hrun)
    by_cases hids : w.seenObjs = []
    · unfold foundObjects at hobjs
      rw [if_pos hids] at hobjs
      rw [List.forall₂_nil_left_iff.mp hobjs]
      exact List.nil_sublist _
    · unfold foundObjects at hobjs
      rw [if_neg hids] at hobjs
      have hselected := mapM_of_forall₂ (forall₂_selected (g := g) ht
        (.withIds (w.seenObjs.insertionSort (· ≤ ·))))
      rw [mapM_of_forall₂ hobjs] at hselected
      rw [Except.ok.inj hselected]
      exact List.filter_sublist
  · rw [alone_neighborhood_absent hsha ht h hin depth] at hrun
    cases hkey : vertexKey env g id with
    | error e =>
      rw [hkey] at hrun
      cases hrun
    | ok vertex =>
      rw [hkey] at hrun
      obtain ⟨rfl, -⟩ := Prod.mk.inj (Except.ok.inj hrun)
      exact List.nil_sublist _

end GraphStore

end ActiveGraphSurreal
