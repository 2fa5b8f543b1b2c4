import ActiveGraphSurreal.Proofs.MapModel

/-!
# The order of insertion

The store keeps no history, only the counters of the ids. Where the ids are numbered in the order
in which they are put for the first time, the projection lists its objects in that order.
-/

namespace ActiveGraphSurreal

open Library

set_option linter.unusedSectionVars false

variable {F X : Type} [Json.ScalarText F]

/-! ### First puts and survivors -/

def Mutation.putId : Mutation F X → Option String
  | .putObject obj => some obj.id
  | _ => none

/-- The ids that a sequence of calls puts, in the order in which it puts them first. -/
def firstPuts (ms : List (Mutation F X)) : List String := (ms.filterMap Mutation.putId).eraseDups

/-- Whether an object is there after a call. -/
def Mutation.survives (id : String) (present : Bool) : Mutation F X → Bool
  | .putObject obj => present || obj.id = id
  | .removeObject id' => present && id' ≠ id
  | .clear => false
  | _ => present

/-- Whether an object is there after a sequence of calls, when it was not there before. -/
def survives (ms : List (Mutation F X)) (id : String) : Bool :=
  ms.foldl (Mutation.survives id) false

/-- The object that a call puts or removes. -/
def Mutation.target : Mutation F X → Option String
  | .putObject obj => some obj.id
  | .removeObject id => some id
  | _ => none

/-- A call on an object or a relation. -/
def Mutation.OnGraph : Mutation F X → Prop
  | .putObject _ | .removeObject _ | .putRelation _ | .removeRelation _ => True
  | _ => False

/-- The id ends in `#` and digits that denote the number, which is in the range of the field. -/
def Numbered (id : String) (n : Nat) : Prop :=
  (∃ digits, EndsIn id digits ∧ denoted digits = n) ∧ n < 2 ^ 63

lemma mem_firstPuts {ms : List (Mutation F X)} {id : String} :
    id ∈ firstPuts ms ↔ ∃ m ∈ ms, m.putId = some id := by
  unfold firstPuts
  rw [List.mem_eraseDups, List.mem_filterMap]

lemma put_of_survives {m : Mutation F X} {id : String} {present : Bool}
    (h : m.survives id present) : present ∨ m.putId = some id := by
  cases m with
  | putObject obj => simpa [Mutation.survives, Mutation.putId] using h
  | removeObject id' =>
    left
    simp only [Mutation.survives, Bool.and_eq_true] at h
    exact h.1
  | clear => cases h
  | putRelation rel => exact .inl h
  | removeRelation id' => exact .inl h
  | putPatch patch => exact .inl h
  | removePatch id' => exact .inl h

lemma mem_firstPuts_of_foldl {ms : List (Mutation F X)} {id : String} {present : Bool}
    (h : ms.foldl (Mutation.survives id) present = true) : present = true ∨ id ∈ firstPuts ms := by
  induction ms generalizing present with
  | nil => exact .inl h
  | cons m ms ih =>
    rcases ih h with hpresent | hrest
    · rcases put_of_survives hpresent with hold | hput
      · exact .inl hold
      · exact .inr (mem_firstPuts.mpr ⟨m, List.mem_cons_self .., hput⟩)
    · obtain ⟨m', hm', hput⟩ := mem_firstPuts.mp hrest
      exact .inr (mem_firstPuts.mpr ⟨m', List.mem_cons_of_mem _ hm', hput⟩)

lemma mem_firstPuts_of_survives {ms : List (Mutation F X)} {id : String} (h : survives ms id) :
    id ∈ firstPuts ms := by
  rcases mem_firstPuts_of_foldl h with hfalse | hmem
  · cases hfalse
  · exact hmem

lemma objectSeq_numbered {id : String} {k : Nat} {n : Int} (hid : Numbered id k)
    (h : objectSeq id = .ok n) : n = k := by
  obtain ⟨⟨digits, hends, rfl⟩, -⟩ := hid
  unfold objectSeq at h
  rw [objectSeqDigits_iff.mpr hends] at h
  by_cases hlength : digits.length ≤ maxStrDigits
  · have hshort := intOfDigits_short hlength
    rw [show intOfDigits digits = .ok n from h] at hshort
    exact Except.ok.inj hshort
  · obtain ⟨e, he⟩ := intOfDigits_long (Nat.not_le.mp hlength)
    rw [show intOfDigits digits = .ok n from h] at he
    cases he

/-- A number in the range of the field is stored as it is. -/
lemma stored_numbered {id : String} {k : Nat} {n seq : Int} (hid : Numbered id k)
    (hn : objectSeq id = .ok n) (hseq : storedInt n = some seq) : seq = k := by
  obtain rfl := objectSeq_numbered hid hn
  have hlt := hid.2
  rw [storedInt_of_fits (fitsInt_iff.mpr ⟨by omega, by omega⟩)] at hseq
  exact (Option.some.inj hseq).symm

/-! ### What the rows hold -/

variable {env : Env F X} {sdk : Sdk} {i : Nat} {g : String × String} {store : GraphStore}
  {t : Tables} {db : Database} {ms : List (Mutation F X)}

/-- The present rows of the run without a counter, and those that hold what their field makes of
the counter of their id. -/
structure Aged (g : String × String) (t : Tables) (old new : String → Prop) : Prop where
  old : ∀ id, old id ↔ ∃ row ∈ t.objectRows g.1 g.2, row.objectId = id ∧ row.objectSeq = none
  new : ∀ id, new id ↔ ∃ row ∈ t.objectRows g.1 g.2, row.objectId = id ∧ row.objectSeq ≠ none
  seq : ∀ row ∈ t.objectRows g.1 g.2, row.objectSeq ≠ none →
    ∃ n seq, objectSeq row.objectId = .ok n ∧ storedInt n = some seq ∧ row.objectSeq = some seq

variable {old new : String → Prop} {ws : List Write}

lemma Aged.congr (h : Aged g t old new) {old' new' : String → Prop} (hold : ∀ id, old' id ↔ old id)
    (hnew : ∀ id, new' id ↔ new id) : Aged g t old' new' :=
  ⟨fun id => (hold id).trans (h.old id), fun id => (hnew id).trans (h.new id), h.seq⟩

/-- A vertex that is written is no longer old. -/
lemma aged_write (hsha : CollisionFree env) (ht : Placed env t) (ha : Aged g t old new)
    {id : String} {vertex : RecordId .agVertex} (hkey : vertexKey env g id = .ok vertex)
    {content : VertexRow} (haddress : (content.scope, content.runId) = g)
    (hid : content.objectId = id) {n seq : Int} (hn : objectSeq id = .ok n)
    (hstored : storedInt n = some seq) (hseq : content.objectSeq = some seq) :
    Aged g ((Write.vertex vertex.key (some content)).apply t) (fun id' => old id' ∧ id' ≠ id)
      fun id' => (content.objectPresent ∧ id' = id) ∨ new id' ∧ id' ≠ id := by
  have hrows := mem_objectRows_write hsha ht hkey haddress
  refine ⟨fun id' => ?_, fun id' => ?_, fun row hrow hne => ?_⟩
  · rw [ha.old]
    constructor
    · rintro ⟨⟨row, hrow, rfl, hnone⟩, hne⟩
      exact ⟨row, (hrows row).mpr (.inr ⟨hrow, hne⟩), rfl, hnone⟩
    · rintro ⟨row, hrow, rfl, hnone⟩
      rcases (hrows row).mp hrow with ⟨rfl, -⟩ | ⟨hold, hne⟩
      · rw [hseq] at hnone
        cases hnone
      · exact ⟨⟨row, hold, rfl, hnone⟩, hne⟩
  · rw [ha.new]
    constructor
    · rintro (⟨hpresent, rfl⟩ | ⟨⟨row, hrow, rfl, hsome⟩, hne⟩)
      · exact ⟨content, (hrows content).mpr (.inl ⟨rfl, hpresent⟩), hid, by simp [hseq]⟩
      · exact ⟨row, (hrows row).mpr (.inr ⟨hrow, hne⟩), rfl, hsome⟩
    · rintro ⟨row, hrow, rfl, hsome⟩
      rcases (hrows row).mp hrow with ⟨rfl, hpresent⟩ | ⟨hold, hne⟩
      · exact .inl ⟨hpresent, hid⟩
      · exact .inr ⟨⟨row, hold, rfl, hsome⟩, hne⟩
  · rcases (hrows row).mp hrow with ⟨rfl, -⟩ | ⟨hold, -⟩
    · rw [hid]
      exact ⟨n, seq, hn, hstored, hseq⟩
    · exact ha.seq row hold hne

/-- An id that is not among them makes no difference. -/
lemma without_eq {p : String → Prop} {id : String} (h : ¬ p id) :
    (fun id' => p id' ∧ id' ≠ id) = p := by
  funext id'
  apply propext
  constructor
  · exact And.left
  · intro hp
    refine ⟨hp, ?_⟩
    rintro rfl
    exact h hp

/-- Where there is no vertex there is neither an old nor a new row. -/
lemma Aged.absent (ht : Placed env t) (ha : Aged g t old new) {id : String}
    {vertex : RecordId .agVertex} (hkey : vertexKey env g id = .ok vertex)
    (hnone : t.vertex.lookup vertex.key = none) : ¬ old id ∧ ¬ new id := by
  have hrow : ∀ row ∈ t.objectRows g.1 g.2, row.objectId ≠ id := by
    rintro row hrow rfl
    obtain ⟨⟨key, hlookup⟩, haddress, -⟩ := GraphStore.mem_objectRows.mp hrow
    have hplace := ht.vertex key row hlookup
    rw [haddress, hkey] at hplace
    rw [← RecordId.mk.inj (Except.ok.inj hplace), hnone] at hlookup
    cases hlookup
  rw [ha.old, ha.new]
  constructor
  · rintro ⟨row, hmem, hid, -⟩
    exact hrow row hmem hid
  · rintro ⟨row, hmem, hid, -⟩
    exact hrow row hmem hid

lemma aged_stub (hsha : CollisionFree env) (ht : Placed env t) (ha : Aged g t old new)
    (haddress : store.address = g) {id : String} {vertex : RecordId .agVertex}
    (hkey : vertexKey env g id = .ok vertex) (hplan : store.stub sdk vertex id = .ok ws) :
    Aged g ((engine sdk).applyAll ws t) (fun id' => old id' ∧ id' ≠ id)
      fun id' => new id' ∧ id' ≠ id := by
  obtain ⟨n, seq, hn, hseq, rfl⟩ := GraphStore.stub_iff.mp hplan
  have hid : (store.placeholderRow id seq).objectId = id := rfl
  have hnew := aged_write hsha ht ha hkey haddress hid hn hseq rfl
  apply hnew.congr
  · exact fun _ => Iff.rfl
  · intro id'
    simp [GraphStore.placeholderRow]

/-- A stub changes no object. -/
lemma aged_endpoint (hsha : CollisionFree env) (ht : Placed env t) (ha : Aged g t old new)
    (haddress : store.address = g) {id : String} {vertex : RecordId .agVertex}
    (hkey : vertexKey env g id = .ok vertex) (hplan : store.endpointPlan sdk t vertex id = .ok ws) :
    Aged g ((engine sdk).applyAll ws t) old new := by
  rcases GraphStore.endpointPlan_iff.mp hplan with ⟨-, rfl⟩ | ⟨hnone, hstub⟩
  · exact ha
  · obtain ⟨hold, hnew⟩ := ha.absent ht hkey hnone
    have hstubbed := aged_stub hsha ht ha haddress hkey hstub
    rw [without_eq hold, without_eq hnew] at hstubbed
    exact hstubbed

/-- One call that is carried out. -/
theorem aged_plan (hsha : CollisionFree env) (ht : Placed env t) (h : store.At env g)
    (ha : Aged g t old new) {m : Mutation F X} (hm : m.OnGraph)
    (hplan : m.plan env sdk store t = .ok ws) :
    Aged g ((engine sdk).applyAll ws t) (fun id => old id ∧ m.target ≠ some id)
      fun id => m.putId = some id ∨ new id ∧ m.target ≠ some id := by
  have haddress := h.address
  cases m with
  | putObject obj =>
    obtain ⟨n, seq, version, record, vertex, hn, hseq, -, hrecord, hkey, rfl⟩ :=
      GraphStore.putObjectPlan_iff.mp hplan
    rw [haddress] at hkey
    have hid : (store.objectContent seq record).objectId = obj.id :=
      (GraphStore.objectToRecord_id hrecord).trans rfl
    apply (aged_write hsha ht ha hkey haddress hid hn hseq rfl).congr
    · intro id
      simp [Mutation.target, eq_comm]
    · intro id
      simp [Mutation.target, Mutation.putId, GraphStore.objectContent, eq_comm]
  | removeObject id =>
    have hgoal : ∀ id', (Mutation.removeObject id : Mutation F X).target ≠ some id' ↔ id' ≠ id := by
      intro id'
      simp [Mutation.target, eq_comm]
    simp only [hgoal, Mutation.putId, reduceCtorEq, false_or]
    obtain ⟨vertex, hkey, ⟨hnone, rfl⟩ | ⟨-, hstub⟩⟩ := GraphStore.removeObjectPlan_iff.mp hplan
    · rw [haddress] at hkey
      obtain ⟨hold, hnew⟩ := ha.absent ht hkey hnone
      rw [without_eq hold, without_eq hnew]
      exact ha
    · rw [haddress] at hkey
      exact aged_stub hsha ht ha haddress hkey hstub
  | putRelation rel =>
    obtain ⟨source, target, relation, hsource, htarget, hrelation, hplan⟩ :=
      GraphStore.putRelationPlan_iff.mp hplan
    rw [haddress] at hsource htarget
    obtain ⟨first, second, record, hfirst, hsecond, -, rfl⟩ :=
      GraphStore.transactionPlan_iff.mp hplan
    have ha₁ := aged_endpoint hsha ht ha haddress hsource hfirst
    have ht₁ := GraphStore.placed_endpoint ht h hsource hfirst
    have ha₂ := aged_endpoint hsha ht₁ ha₁ haddress htarget hsecond
    rw [Engine.applyAll_append, Engine.applyAll_append]
    have ha₃ : Aged g ((engine sdk).applyAll (store.relationWrites source target relation record)
        ((engine sdk).applyAll second ((engine sdk).applyAll first t))) old new :=
      ⟨ha₂.old, ha₂.new, ha₂.seq⟩
    apply ha₃.congr
    · simp [Mutation.target]
    · simp [Mutation.target, Mutation.putId]
  | removeRelation id =>
    obtain ⟨relation, -, hplan⟩ := bind_eq_ok.mp hplan
    obtain rfl := pure_eq_ok.mp hplan
    have ha₁ : Aged g ((engine sdk).applyAll [.relation relation.key none] t) old new :=
      ⟨ha.old, ha.new, ha.seq⟩
    apply ha₁.congr
    · simp [Mutation.target]
    · simp [Mutation.target, Mutation.putId]
  | putPatch patch => exact hm.elim
  | removePatch id => exact hm.elim
  | clear => exact hm.elim

lemma survives_iff {m : Mutation F X} (hm : m.OnGraph) (id : String) (present : Bool) :
    m.survives id present ↔ m.putId = some id ∨ present ∧ m.target ≠ some id := by
  cases m with
  | putObject obj =>
    by_cases hid : obj.id = id
    · simp [Mutation.survives, Mutation.putId, hid]
    · simp [Mutation.survives, Mutation.putId, Mutation.target, hid]
  | removeObject id' => simp [Mutation.survives, Mutation.putId, Mutation.target]
  | putRelation rel => simp [Mutation.survives, Mutation.putId, Mutation.target]
  | removeRelation id' => simp [Mutation.survives, Mutation.putId, Mutation.target]
  | putPatch patch => exact hm.elim
  | removePatch id' => exact hm.elim
  | clear => exact hm.elim

variable (sdk i) in
/-- A sequence of calls where every row has its counter. -/
theorem counted_run (hsha : CollisionFree env) (ht : Sound env db.tables)
    (h : store.Readable env g db.tables) {present : String → Bool}
    (hc : Aged g db.tables (fun _ => False) fun id => present id) (hms : ∀ m ∈ ms, m.OnGraph) :
    Sound env (runMutations env sdk i store ms db).2.tables ∧
      store.Readable env g (runMutations env sdk i store ms db).2.tables ∧
      Aged g (runMutations env sdk i store ms db).2.tables (fun _ => False) fun id =>
        (runMutations env sdk i store ms db).1.foldl (Mutation.survives id) (present id) := by
  induction ms generalizing db present with
  | nil => exact ⟨ht, h, hc⟩
  | cons m ms ih =>
    have hm : m.OnGraph := hms m (List.mem_cons_self ..)
    have hclear : m ≠ .clear := by
      rintro rfl
      exact hm
    have hrest : ∀ m' ∈ ms, m'.OnGraph := fun m' hm' => hms m' (List.mem_cons_of_mem _ hm')
    obtain ⟨db', hrun, hsound, hreadable, htables⟩ := alone_mutation sdk i hsha ht h hclear
    cases hplan : m.plan env sdk store db.tables with
    | error e =>
      rw [hplan] at hrun htables
      rw [runMutations_raised hrun]
      have hc' : Aged g db'.tables (fun _ => False) fun id => present id := by
        rw [htables]
        exact hc
      exact ih hsound hreadable hc' hrest
    | ok ws =>
      rw [hplan] at hrun htables
      rw [runMutations_returned hrun]
      have hc' : Aged g db'.tables (fun _ => False) fun id => m.survives id (present id) := by
        rw [htables]
        apply (aged_plan hsha ht.toPlaced h.toAt hc hm hplan).congr
        · simp
        · exact fun id => survives_iff hm id (present id)
      exact ih hsound hreadable hc' hrest

lemma sublist_runMutations (ms : List (Mutation F X)) (db : Database) :
    (runMutations env sdk i store ms db).1.Sublist ms := by
  induction ms generalizing db with
  | nil => exact .slnil
  | cons m ms ih =>
    unfold runMutations
    split
    · exact (ih _).cons_cons m
    · exact (ih _).cons m

/-! ### The order of the objects -/

/-- The ids of a projection with numbered ids, in the order of the numbers. -/
lemma objects_of_counted (ht : Sound env t) {present : String → Bool}
    (hc : Aged g t (fun _ => False) fun id => present id) {number : String → Nat}
    {ids : List String} (hids : ∀ id, present id → id ∈ ids)
    (hnumber : ∀ id ∈ ids, Numbered id (number id))
    (hincreasing : ids.Pairwise fun a b => number a < number b) :
    (t.objects env g).map (·.id) = ids.filter present := by
  let rank : String → Lex (WithBot Int × String) := fun id =>
    toLex (seqRank (some (number id)), id)
  have hseqs : ∀ row ∈ t.objectRows g.1 g.2, row.objectSeq ≠ none :=
    fun row hrow hnone => (hc.old row.objectId).mpr ⟨row, hrow, rfl, hnone⟩
  have hrank : ∀ row ∈ t.selectedObjects g .any, row.rank = rank row.objectId := by
    intro row hrow
    have hmem := (mem_selectedObjects.mp hrow).1
    have hsome := hseqs row hmem
    obtain ⟨n, seq, hn, hstored, hseq⟩ := hc.seq row hmem hsome
    have hid := hids _ ((hc.new _).mpr ⟨row, hmem, rfl, hsome⟩)
    unfold VertexRow.rank
    rw [hseq, stored_numbered (hnumber _ hid) hn hstored]
  rw [map_id_objects ht g]
  refine Records.eq_of_increasing (f := rank) ?_ ?_ ?_
  · rw [List.pairwise_map]
    refine (pairwise_selectedObjects ht.toPlaced .any).imp_of_mem ?_
    intro a b ha hb hab
    rw [← hrank a ha, ← hrank b hb]
    exact hab
  · refine (hincreasing.filter _).imp ?_
    intro a b hab
    refine Prod.Lex.toLex_lt_toLex.mpr (.inl ?_)
    exact WithBot.coe_lt_coe.mpr (Int.ofNat_lt.mpr hab)
  · intro id
    rw [List.mem_filter, List.mem_map]
    have hrows : (∃ row ∈ t.selectedObjects g .any, row.objectId = id) ↔ present id := by
      rw [hc.new id]
      simp only [mem_selectedObjects, ObjectFilter.accepts, and_true]
      exact exists_congr fun row => and_congr_right fun hrow => (and_iff_left (hseqs row hrow)).symm
    rw [hrows]
    exact ⟨fun h => ⟨hids id h, h⟩, And.right⟩

open GraphStore in
/-- What every reader of objects returns keeps the order of the list. -/
structure KeepOrder (env : Env F X) (sdk : Sdk) (i : Nat) (store : GraphStore) (db : Database)
    (objs : List (Object F X)) : Prop where
  allObjects : (alone sdk i (allObjects env) store db).1.1 = .ok objs
  findObjects : ∀ objectType, ∃ found,
    (alone sdk i (findObjects env objectType) store db).1.1 = .ok found ∧ found.Sublist objs
  findObjectsInTypes : ∀ types, ∃ found,
    (alone sdk i (findObjectsInTypes env types) store db).1.1 = .ok found ∧ found.Sublist objs
  queryObjects : ∀ plan result, (alone sdk i (queryObjects env plan) store db).1.1 = .ok result →
    ∃ found, (alone sdk i (GraphStore.findObjects env plan.type) store db).1.1 = .ok found ∧
      result.candidates <+: found ∧ result.candidates.Sublist objs
  neighborhood : ∀ id depth found rels,
    (alone sdk i (neighborhood env id depth) store db).1.1 = .ok (found, rels) →
      found.Sublist objs

variable (sdk i) in
lemma keepOrder_objects (hsha : CollisionFree env) (hscan : sdk.Permutes) (ht : Sound env db.tables)
    (h : store.Readable env g db.tables) :
    KeepOrder env sdk i store db (db.tables.objects env g) where
  allObjects := by rw [GraphStore.alone_allObjects hsha ht h]
  findObjects objectType := by
    rw [GraphStore.alone_findObjects hsha ht h]
    exact ⟨_, rfl, List.filter_sublist⟩
  findObjectsInTypes types := by
    rw [GraphStore.alone_findObjectsInTypes hsha ht h]
    exact ⟨_, rfl, List.filter_sublist⟩
  queryObjects plan result hrun := by
    rw [GraphStore.alone_findObjects hsha ht h, GraphStore.returned_queryObjects hsha ht h hrun]
    have hprefix : (GraphStore.queryAnswer (db.tables.objects env g) plan).candidates <+:
        (db.tables.objects env g).filter (GraphStore.objectFilter plan.type).picks := by
      unfold GraphStore.queryAnswer
      split
      · exact List.nil_prefix
      · exact limited_prefix _ _
    exact ⟨_, rfl, hprefix, hprefix.sublist.trans List.filter_sublist⟩
  neighborhood id depth found rels hrun :=
    GraphStore.sublist_neighborhood hsha hscan ht h hrun

/-- However the calls that put, remove and relate objects follow each other: when the ids that
they put come in the order of their numbers, the readers list the objects that are left in the
order in which they were put first, whether or not a call that raises counts as one. -/
theorem listed_as_first_put (hsha : CollisionFree env) (hscan : sdk.Permutes)
    (ht : Sound env db.tables) (h : store.Readable env g db.tables)
    (hobjects : db.tables.objectRows g.1 g.2 = []) (hms : ∀ m ∈ ms, m.OnGraph)
    (seen : List (Mutation F X))
    (hseen : seen = ms ∨ seen = (runMutations env sdk i store ms db).1) (number : String → Nat)
    (hnumber : ∀ id ∈ firstPuts seen, Numbered id (number id))
    (hincreasing : (firstPuts seen).Pairwise fun a b => number a < number b) :
    ∃ objs : List (Object F X),
      objs.map (·.id) =
        (firstPuts seen).filter (survives (runMutations env sdk i store ms db).1) ∧
      KeepOrder env sdk i store (runMutations env sdk i store ms db).2 objs := by
  have hempty : Aged g db.tables (fun _ => False) fun _ => false := by
    refine ⟨?_, ?_, ?_⟩
    · simp [hobjects]
    · simp [hobjects]
    · simp [hobjects]
  obtain ⟨hsound, hreadable, hcounted⟩ := counted_run sdk i hsha ht h hempty hms
  have hids : ∀ id, survives (runMutations env sdk i store ms db).1 id → id ∈ firstPuts seen := by
    intro id hid
    have hreturned := mem_firstPuts_of_survives hid
    rcases hseen with rfl | rfl
    · obtain ⟨m, hm, hput⟩ := mem_firstPuts.mp hreturned
      exact mem_firstPuts.mpr ⟨m, (sublist_runMutations _ _).subset hm, hput⟩
    · exact hreturned
  refine ⟨_, ?_, keepOrder_objects sdk i hsha hscan hsound hreadable⟩
  exact objects_of_counted hsound hcounted hids hnumber hincreasing

lemma numbered_digit {id : String} {c : Char} {n : Nat} (stem : List Char)
    (hid : id.toList = stem ++ ['#', c]) (hc : (decimalValue c).isSome) (hn : denoted [c] = n)
    (hlt : n < 2 ^ 63) : Numbered id n := by
  refine ⟨⟨[c], ⟨List.cons_ne_nil _ _, ?_, stem, .inl hid⟩, hn⟩, hlt⟩
  intro c' hc'
  rw [List.mem_singleton.mp hc']
  exact hc

/-- Two objects, the second of which is first seen as the end of a relation. -/
def relatedMutations : List (Mutation Unit Empty) :=
  [.putObject (numberedObject "task#1"),
    .putRelation ⟨"r", "task#1", "task#2", "needs", .obj [], .obj []⟩,
    .putObject (numberedObject "task#2"), .putObject (numberedObject "task#1")]

theorem listed_as_first_put_related :
    ∃ objs : List (Object Unit Empty),
      objs.map (·.id) = (firstPuts relatedMutations).filter (survives (runMutations (reference Unit)
        referenceSdk 0 (referenceGraph ("s", "r")) relatedMutations readyDatabase).1) ∧
      KeepOrder (reference Unit) referenceSdk 0 (referenceGraph ("s", "r")) (runMutations
        (reference Unit) referenceSdk 0 (referenceGraph ("s", "r")) relatedMutations
          readyDatabase).2 objs := by
  have hputs : firstPuts relatedMutations = ["task#1", "task#2"] := by decide
  apply listed_as_first_put reference_collisionFree (fun _ => List.Perm.refl _) sound_ready
    readable_ready rfl ?_ relatedMutations (.inl rfl) fun id => if id = "task#1" then 1 else 2
  · rw [hputs]
    intro id hid
    simp only [List.mem_cons, List.not_mem_nil, or_false] at hid
    rcases hid with rfl | rfl
    · exact numbered_digit "task".toList rfl (by decide) rfl (by decide)
    · exact numbered_digit "task".toList rfl (by decide) rfl (by decide)
  · rw [hputs]
    decide
  · intro m hm
    simp only [relatedMutations, List.mem_cons, List.not_mem_nil, or_false] at hm
    rcases hm with rfl | rfl | rfl | rfl
    · trivial
    · trivial
    · trivial
    · trivial

end ActiveGraphSurreal
