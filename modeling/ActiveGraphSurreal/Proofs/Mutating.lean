import ActiveGraphSurreal.Proofs.Reading

/-!
# Changing a projection

What the mutations of a graph store write when they run alone on sound tables, over a
projection that the store may write: a plan, computed from the tables, is carried out as a
whole or raises.
-/

namespace ActiveGraphSurreal

open Library

set_option linter.unusedSectionVars false

variable {F X : Type} [Json.ScalarText F]

/-! ### Plans -/

/-- Alone, the method carries out the plan or raises with nothing changed. -/
structure Does {ℓ : Type} (sdk : Sdk) (i : Nat) (m : Py ℓ Unit) (l : ℓ) (db : Database)
    (plan : Except PyErr (List Write)) : Prop where
  answer : (alone sdk i m l db).1 = (plan.map fun _ => (), l)
  tables : (alone sdk i m l db).2.tables =
    (engine sdk).applyAll (plan.toOption.getD []) db.tables

section rules

variable {ℓ α : Type} {sdk : Sdk} {i : Nat} {l : ℓ} {db : Database}

lemma does_error {m : Py ℓ Unit} {e : PyErr} {db' : Database}
    (h : alone sdk i m l db = ((.error e, l), db')) (htables : db'.tables = db.tables) :
    Does sdk i m l db (.error e) := by
  refine ⟨?_, ?_⟩
  · rw [h]
    rfl
  · rw [h]
    exact htables

lemma does_ok {m : Py ℓ Unit} {ws : List Write} {db' : Database}
    (h : alone sdk i m l db = ((.ok (), l), db'))
    (htables : db'.tables = (engine sdk).applyAll ws db.tables) : Does sdk i m l db (.ok ws) := by
  refine ⟨?_, ?_⟩
  · rw [h]
    rfl
  · rw [h]
    exact htables

/-- A first part that changes nothing. -/
lemma does_bind {m : Py ℓ α} {f : α → Py ℓ Unit} {x : Except PyErr α}
    {plan : α → Except PyErr (List Write)} (hm : alone sdk i m l db = ((x, l), db))
    (hf : ∀ a, x = .ok a → Does sdk i (f a) l db (plan a)) :
    Does sdk i (m >>= f) l db (x >>= plan) := by
  cases x with
  | error e =>
    apply does_error _ rfl
    rw [alone_bind, hm, aloneThen_error]
  | ok a =>
    have hrest := hf a rfl
    have hrun : alone sdk i (m >>= f) l db = alone sdk i (f a) l db := by
      rw [alone_bind, hm, aloneThen_ok]
    refine ⟨?_, ?_⟩
    · rw [hrun]
      exact hrest.answer
    · rw [hrun]
      exact hrest.tables

lemma does_then {m : Py ℓ α} {f : α → Py ℓ Unit} {a : α} {plan : Except PyErr (List Write)}
    (hm : alone sdk i m l db = ((.ok a, l), db)) (hf : Does sdk i (f a) l db plan) :
    Does sdk i (m >>= f) l db plan := by
  have hbind : Does sdk i (m >>= f) l db (.ok a >>= fun _ => plan) := by
    apply does_bind hm
    intro a' ha
    obtain rfl := Except.ok.inj ha
    exact hf
  exact hbind

/-! ### Plans of a transaction -/

/-- The transaction has made some writes and commits the planned ones, or raises while it is
still open. -/
def Carries (sdk : Sdk) (i : Nat) (m : Py ℓ Unit) (l : ℓ) (db : Database) (ws : List Write) :
    Except PyErr (List Write) → Prop
  | .ok ws' => alone sdk i m l (during i db ws) =
      ((.ok (), l), (engine sdk).commit ws' (withdrawn i db))
  | .error e => ∃ ws', alone sdk i m l (during i db ws) = ((.error e, l), during i db ws')

variable {ws : List Write}

lemma carries_commit : Carries sdk i commit l db ws (.ok ws) := alone_commit sdk i l

lemma carries_then {m : Py ℓ α} {f : α → Py ℓ Unit} {a : α} {ws' : List Write}
    {plan : Except PyErr (List Write)}
    (hm : alone sdk i m l (during i db ws) = ((.ok a, l), during i db ws'))
    (hf : Carries sdk i (f a) l db ws' plan) : Carries sdk i (m >>= f) l db ws plan := by
  have hrun : alone sdk i (m >>= f) l (during i db ws) = alone sdk i (f a) l (during i db ws') := by
    rw [alone_bind, hm, aloneThen_ok]
  cases plan with
  | error e =>
    obtain ⟨ws'', hf⟩ := hf
    exact ⟨ws'', hrun.trans hf⟩
  | ok planned => exact hrun.trans hf

lemma carries_lift {x : Except PyErr α} {f : α → Py ℓ Unit}
    {plan : α → Except PyErr (List Write)}
    (hf : ∀ a, x = .ok a → Carries sdk i (f a) l db ws (plan a)) :
    Carries sdk i (lift x >>= f) l db ws (x >>= plan) := by
  cases x with
  | error e =>
    refine ⟨ws, ?_⟩
    rw [alone_bind, alone_lift, aloneThen_error]
  | ok a => exact carries_then (alone_lift ..) (hf a rfl)

/-- A first part with a plan of its own. -/
lemma carries_bind {m : Py ℓ Unit} {f : Unit → Py ℓ Unit} {first : Except PyErr (List Write)}
    {plan : List Write → Except PyErr (List Write)}
    (hm : alone sdk i m l (during i db ws) =
      ((first.map fun _ => (), l), during i db (ws ++ first.toOption.getD [])))
    (hf : ∀ ws', first = .ok ws' → Carries sdk i (f ()) l db (ws ++ ws') (plan ws')) :
    Carries sdk i (m >>= f) l db ws (first >>= plan) := by
  cases first with
  | error e =>
    refine ⟨ws ++ [], ?_⟩
    rw [alone_bind, hm]
    rfl
  | ok ws' => exact carries_then hm (hf ws' rfl)

/-- A transaction that is given up when it raises. -/
lemma does_transaction {m : Py ℓ Unit} {plan : Except PyErr (List Write)}
    (hm : Carries sdk i m l db [] plan) :
    Does sdk i (beginTransaction >>= fun _ => tryCatch m fun e => do
      cancelSafely
      throw e) l db plan := by
  cases plan with
  | error e =>
    obtain ⟨ws, hm⟩ := hm
    have hrun : alone sdk i (beginTransaction >>= fun _ => tryCatch m fun e => do
        cancelSafely
        throw e) l db = ((.error e, l), withdrawn i db) := by
      rw [alone_bind, alone_begin, aloneThen_ok, alone_tryCatch, hm, aloneElse_error, alone_bind,
        alone_cancelSafely, aloneThen_ok, alone_throw]
    exact does_error hrun rfl
  | ok ws =>
    have hrun : alone sdk i (beginTransaction >>= fun _ => tryCatch m fun e => do
        cancelSafely
        throw e) l db = ((.ok (), l), (engine sdk).commit ws (withdrawn i db)) := by
      rw [alone_bind, alone_begin, aloneThen_ok, alone_tryCatch, hm, aloneElse_ok, alone_pure]
    exact does_ok hrun (tables_commit sdk)

end rules

namespace GraphStore

variable (env : Env F X) (sdk : Sdk) (store : GraphStore)

def putObjectPlan (obj : Object F X) : Except PyErr (List Write) := do
  let seq ← objectSeq obj.id
  let record ← objectToRecord env obj
  let vertex ← vertexKey env store.address obj.id
  let row ← (store.objectContent seq record).stored sdk
  return [.vertex vertex.key (some row)]

/-- The placeholder that an id leaves or gets. -/
def stub (vertex : RecordId .agVertex) (id : String) : Except PyErr (List Write) := do
  let seq ← objectSeq id
  let row ← (store.placeholderRow id seq).stored sdk
  return [.vertex vertex.key (some row)]

def removeObjectPlan (t : Tables) (id : String) : Except PyErr (List Write) := do
  let vertex ← vertexKey env store.address id
  match t.vertex.lookup vertex.key with
  | none => return []
  | some _ => store.stub sdk vertex id

def endpointPlan (t : Tables) (vertex : RecordId .agVertex) (id : String) :
    Except PyErr (List Write) :=
  match t.vertex.lookup vertex.key with
  | none => store.stub sdk vertex id
  | some _ => .ok []

/-- The two writes of a relation, which may be there already. -/
def relationWrites (source target : RecordId .agVertex) (relation : RecordId .agRelation)
    (record : RelationRecord) : List Write :=
  [.relation relation.key none,
    .relation relation.key (some (store.relationContent source target record))]

def transactionPlan (t : Tables) (rel : Relation F X) (source target : RecordId .agVertex)
    (relation : RecordId .agRelation) : Except PyErr (List Write) := do
  let ws ← store.endpointPlan sdk t source rel.source
  let ws' ← store.endpointPlan sdk ((engine sdk).applyAll ws t) target rel.target
  let record ← relationToRecord env rel
  return ws ++ ws' ++ store.relationWrites source target relation record

def putRelationPlan (t : Tables) (rel : Relation F X) : Except PyErr (List Write) := do
  let source ← vertexKey env store.address rel.source
  let target ← vertexKey env store.address rel.target
  let relation ← relationKey env store.address rel.id
  store.transactionPlan env sdk t rel source target relation

def removeRelationPlan (id : String) : Except PyErr (List Write) := do
  let relation ← relationKey env store.address id
  return [.relation relation.key none]

def putPatchPlan (patch : Patch F X) : Except PyErr (List Write) := do
  let record ← patchKey env store.address patch.id
  let content ← patchToRecord env patch
  let row ← (store.patchContent content).stored sdk
  return [.patch record.key (some row)]

def removePatchPlan (id : String) : Except PyErr (List Write) := do
  let record ← patchKey env store.address id
  return [.patch record.key none]

end GraphStore

namespace GraphStore

variable {env : Env F X} {sdk : Sdk} {i : Nat} {g : String × String} {store : GraphStore}
  {db : Database}

/-! ### Statements that no index refuses -/

lemma not_anyElse {R : Type} {t : Records R} {key : String} {p : R → Bool}
    (h : ∀ k row, t.lookup k = some row → p row → k = key) : t.anyElse key p = false := by
  rw [Bool.eq_false_iff]
  intro hany
  obtain ⟨k, row, hne, hrow, hp⟩ := Records.anyElse_iff.mp hany
  exact hne (h k row hrow hp)

lemma key_of_vertexClash {t : Tables} (ht : Placed env t) {content row : VertexRow} {key k : String}
    (hkey : vertexKey env (content.scope, content.runId) content.objectId = .ok ⟨key⟩)
    (hrow : t.vertex.lookup k = some row) (hclash : vertexClash content row) : k = key := by
  simp only [vertexClash, Bool.and_eq_true, decide_eq_true_eq] at hclash
  obtain ⟨⟨hscope, hrun⟩, hid⟩ := hclash
  have hplace := ht.vertex k row hrow
  rw [hscope, hrun, hid, hkey] at hplace
  exact (RecordId.mk.inj (Except.ok.inj hplace)).symm

lemma key_of_relationClash {t : Tables} (ht : Placed env t) {content row : RelationRow}
    {key k : String}
    (hkey : relationKey env (content.scope, content.runId) content.relationId = .ok ⟨key⟩)
    (hrow : t.relation.lookup k = some row) (hclash : relationClash content row) : k = key := by
  simp only [relationClash, Bool.and_eq_true, decide_eq_true_eq] at hclash
  obtain ⟨⟨hscope, hrun⟩, hid⟩ := hclash
  have hplace := ht.relation k row hrow
  rw [hscope, hrun, hid, hkey] at hplace
  exact (RecordId.mk.inj (Except.ok.inj hplace)).symm

lemma key_of_patchClash {t : Tables} (ht : Placed env t) {content row : PatchRow} {key k : String}
    (hkey : patchKey env (content.scope, content.runId) content.patchId = .ok ⟨key⟩)
    (hrow : t.patch.lookup k = some row) (hclash : patchClash content row) : k = key := by
  simp only [patchClash, Bool.and_eq_true, decide_eq_true_eq] at hclash
  obtain ⟨⟨hscope, hrun⟩, hid⟩ := hclash
  have hplace := ht.patch k row hrow
  rw [hscope, hrun, hid, hkey] at hplace
  exact (RecordId.mk.inj (Except.ok.inj hplace)).symm

variable {t : Tables}

variable (sdk) in
lemma exec_upsertVertex (ht : Placed env t) {content : VertexRow} {vertex : RecordId .agVertex}
    (hkey : vertexKey env (content.scope, content.runId) content.objectId = .ok vertex) :
    Stmt.exec sdk (.upsertVertex vertex content) t =
      (content.stored sdk).map fun row => ((), [.vertex vertex.key (some row)]) := by
  have hfree : t.vertex.anyElse vertex.key (vertexClash content) = false :=
    not_anyElse fun k row hrow hclash => key_of_vertexClash ht hkey hrow hclash
  simp only [Stmt.exec, upsert, hfree]
  rfl

variable (sdk) in
lemma exec_createVertex (ht : Placed env t) {content : VertexRow} {vertex : RecordId .agVertex}
    (hkey : vertexKey env (content.scope, content.runId) content.objectId = .ok vertex)
    (hnew : t.vertex.lookup vertex.key = none) : Stmt.exec sdk (.createVertex vertex content) t =
      (content.stored sdk).map fun row => ((), [.vertex vertex.key (some row)]) := by
  have hfree : t.vertex.anyElse vertex.key (vertexClash content) = false :=
    not_anyElse fun k row hrow hclash => key_of_vertexClash ht hkey hrow hclash
  simp only [Stmt.exec, create, hnew, hfree]
  rfl

variable (sdk) in
lemma exec_insertRelation (ht : Placed env t) {content : RelationRow}
    {relation : RecordId .agRelation}
    (hkey : relationKey env (content.scope, content.runId) content.relationId = .ok relation) :
    Stmt.exec sdk (.insertRelation relation content)
        ((engine sdk).applyAll [.relation relation.key none] t) =
      .ok ((), [.relation relation.key (some content)]) := by
  have hgone : (t.relation.write relation.key none).lookup relation.key = none := by
    rw [Records.lookup_write, if_pos rfl]
  have hfree : (t.relation.write relation.key none).anyElse relation.key
      (relationClash content) = false := by
    apply not_anyElse
    intro k row hrow hclash
    rw [Records.lookup_write] at hrow
    split at hrow
    · assumption
    · exact key_of_relationClash ht hkey hrow hclash
  change create sdk .agRelation _ (t.relation.write relation.key none) _ _ _ = _
  simp only [create, hgone, hfree]
  rfl

variable (sdk) in
lemma exec_upsertPatch (ht : Placed env t) {content : PatchRow} {patch : RecordId .agPatch}
    (hkey : patchKey env (content.scope, content.runId) content.patchId = .ok patch) :
    Stmt.exec sdk (.upsertPatch patch content) t =
      (content.stored sdk).map fun row => ((), [.patch patch.key (some row)]) := by
  have hfree : t.patch.anyElse patch.key (patchClash content) = false :=
    not_anyElse fun k row hrow hclash => key_of_patchClash ht hkey hrow hclash
  simp only [Stmt.exec, upsert, hfree]
  rfl

/-! ### The mutations -/

lemma objectToRecord_id {obj : Object F X} {record : ObjectRecord}
    (h : objectToRecord env obj = .ok record) : record.objectId = obj.id := by
  obtain ⟨dataJson, -, h⟩ := bind_eq_ok.mp h
  obtain ⟨provenanceJson, -, h⟩ := bind_eq_ok.mp h
  obtain rfl := pure_eq_ok.mp h
  rfl

lemma objectToRecord_version {obj : Object F X} {record : ObjectRecord}
    (h : objectToRecord env obj = .ok record) : record.version = obj.version := by
  obtain ⟨dataJson, -, h⟩ := bind_eq_ok.mp h
  obtain ⟨provenanceJson, -, h⟩ := bind_eq_ok.mp h
  obtain rfl := pure_eq_ok.mp h
  rfl

lemma map_eq_ok {ε α β : Type} {x : Except ε α} {f : α → β} {b : β} :
    x.map f = .ok b ↔ ∃ a, x = .ok a ∧ f a = b := by
  cases x with
  | error e => simp [Except.map]
  | ok a => simp [Except.map]

/-- The version takes no part in the encoding of the other fields. -/
lemma objectToRecord_with (obj : Object F X) (version : Int) :
    objectToRecord env { obj with version } =
      (objectToRecord env obj).map fun record => { record with version } := by
  unfold objectToRecord
  cases canonicalJson env obj.data with
  | error e => rfl
  | ok dataJson =>
    cases canonicalJson env obj.provenance with
    | error e => rfl
    | ok provenanceJson => rfl

lemma stored_objectContent {n : Int} {record : ObjectRecord} {row : VertexRow} :
    (store.objectContent n record).stored sdk = .ok row ↔ ∃ seq version, storedInt n = some seq ∧
      storedInt record.version = some version ∧
      row = store.objectContent seq { record with version } := by
  rw [VertexRow.stored_eq_ok]
  simp [objectContent]

lemma relationToRecord_fields {rel : Relation F X} {record : RelationRecord}
    (h : relationToRecord env rel = .ok record) :
    record.relationId = rel.id ∧ record.source = rel.source ∧ record.target = rel.target := by
  obtain ⟨dataJson, -, h⟩ := bind_eq_ok.mp h
  obtain ⟨provenanceJson, -, h⟩ := bind_eq_ok.mp h
  obtain rfl := pure_eq_ok.mp h
  exact ⟨rfl, rfl, rfl⟩

lemma patchToRecord_id {patch : Patch F X} {record : PatchRecord}
    (h : patchToRecord env patch = .ok record) : record.patchId = patch.id := by
  obtain ⟨_, -, h⟩ := bind_eq_ok.mp h
  obtain ⟨_, -, h⟩ := bind_eq_ok.mp h
  obtain ⟨_, -, h⟩ := bind_eq_ok.mp h
  obtain rfl := pure_eq_ok.mp h
  rfl

lemma patchToRecord_version {patch : Patch F X} {record : PatchRecord}
    (h : patchToRecord env patch = .ok record) :
    record.expectedVersion = patch.expectedVersion := by
  obtain ⟨_, -, h⟩ := bind_eq_ok.mp h
  obtain ⟨_, -, h⟩ := bind_eq_ok.mp h
  obtain ⟨_, -, h⟩ := bind_eq_ok.mp h
  obtain rfl := pure_eq_ok.mp h
  rfl

lemma patchToRecord_with (patch : Patch F X) (expectedVersion : Int) :
    patchToRecord env { patch with expectedVersion } =
      (patchToRecord env patch).map fun record => { record with expectedVersion } := by
  unfold patchToRecord
  cases canonicalJson env patch.value with
  | error e => rfl
  | ok valueJson =>
    cases canonicalJson env (.arr patch.evidence) with
    | error e => rfl
    | ok evidenceJson =>
      cases canonicalJson env patch.provenance with
      | error e => rfl
      | ok provenanceJson => rfl

/-- The key of a row is the key of its address and its id. -/
lemma vertexKey_content (h : store.At env g) {id : String} {vertex : RecordId .agVertex}
    (hkey : vertexKey env g id = .ok vertex) {content : VertexRow}
    (hscope : (content.scope, content.runId) = store.address) (hid : content.objectId = id) :
    vertexKey env (content.scope, content.runId) content.objectId = .ok vertex := by
  rw [hscope, hid, h.address]
  exact hkey

/-- A vertex that is written as its fields hold it, or not at all. -/
lemma does_upsertVertex (ht : Placed env db.tables) {content : VertexRow}
    {vertex : RecordId .agVertex}
    (hkey : vertexKey env (content.scope, content.runId) content.objectId = .ok vertex) :
    Does sdk i (query (.upsertVertex vertex content)) store db (do
      let row ← content.stored sdk
      return [.vertex vertex.key (some row)]) := by
  have hexec := exec_upsertVertex sdk ht hkey
  cases hrow : content.stored sdk with
  | error e =>
    rw [hrow] at hexec
    exact does_error (alone_refused hexec) rfl
  | ok row =>
    rw [hrow] at hexec
    exact does_ok (alone_write hexec) (tables_commit sdk)

theorem does_putObject (hsha : CollisionFree env) (ht : Placed env db.tables)
    (h : store.Readable env g db.tables) (obj : Object F X) :
    Does sdk i (putObject env obj) store db (store.putObjectPlan env sdk obj) := by
  unfold putObject putObjectPlan
  refine does_then (alone_assertReadable hsha ht h) (does_then (alone_get ..) ?_)
  refine does_bind (alone_lift ..) fun seq _ => does_bind (alone_lift ..) fun record hrecord => ?_
  rw [h.address]
  refine does_bind (alone_vertexRecordId h.toAt obj.id) fun vertex hkey => ?_
  exact does_upsertVertex ht (vertexKey_content h.toAt hkey rfl (objectToRecord_id hrecord))

lemma stub_error {id : String} {vertex : RecordId .agVertex} {e : PyErr}
    (hseq : objectSeq id = .error e) : store.stub sdk vertex id = .error e := by
  unfold stub
  rw [hseq]
  rfl

lemma stub_ok {id : String} {vertex : RecordId .agVertex} {seq : Int}
    (hseq : objectSeq id = .ok seq) : store.stub sdk vertex id =
      ((store.placeholderRow id seq).stored sdk).map fun row => [.vertex vertex.key (some row)] := by
  unfold stub
  rw [hseq]
  change ((store.placeholderRow id seq).stored sdk >>= fun row => pure _) = _
  cases (store.placeholderRow id seq).stored sdk with
  | error e => rfl
  | ok row => rfl

lemma alone_placeholderContent {α : Type} (f : VertexRow → Py GraphStore α) (id : String)
    (db : Database) : alone sdk i (placeholderContent id >>= f) store db = alone sdk i (do
      let seq ← lift (objectSeq id)
      f (store.placeholderRow id seq)) store db := by
  unfold placeholderContent
  simp only [alone_bind, alone_get, aloneThen_ok, alone_lift]
  cases objectSeq id with
  | error e => rfl
  | ok seq => rfl

theorem does_removeObject (hsha : CollisionFree env) (ht : Placed env db.tables)
    (h : store.Readable env g db.tables) (id : String) :
    Does sdk i (removeObject env id) store db (store.removeObjectPlan env sdk db.tables id) := by
  unfold removeObject removeObjectPlan
  refine does_then (alone_assertReadable hsha ht h) ?_
  rw [h.address]
  refine does_bind (alone_vertexRecordId h.toAt id) fun vertex hkey => ?_
  refine does_then (alone_read sdk i store db rfl) ?_
  cases hrow : db.tables.vertex.lookup vertex.key with
  | none => exact does_ok (alone_pure ..) rfl
  | some row =>
    obtain ⟨haddress, hid⟩ := vertex_fields hsha ht hkey hrow
    have hscope : (row.scope, row.runId) = store.address := haddress.trans h.address.symm
    have hids : ∀ ids ∈ some (row.objectId, id), ids.1 = ids.2 := by simp [hid]
    have hstub : Does sdk i (lift (objectSeq id) >>= fun seq =>
        query (.upsertVertex vertex (store.placeholderRow id seq))) store db
        (store.stub sdk vertex id) := by
      refine does_bind (alone_lift ..) fun seq _ => ?_
      exact does_upsertVertex ht (vertexKey_content h.toAt hkey rfl rfl)
    refine does_then (alone_assertScopedRow hscope hids) ⟨?_, ?_⟩
    · rw [alone_placeholderContent]
      exact hstub.answer
    · rw [alone_placeholderContent]
      exact hstub.tables

/-! ### The transaction of a relation -/

variable {ws : List Write}

lemma stored_placeholderRow {id : String} {n : Int} {row : VertexRow} :
    (store.placeholderRow id n).stored sdk = .ok row ↔
      ∃ seq, storedInt n = some seq ∧ row = store.placeholderRow id seq := by
  rw [VertexRow.stored_eq_ok]
  simp [placeholderRow]

lemma stub_iff {vertex : RecordId .agVertex} {id : String} :
    store.stub sdk vertex id = .ok ws ↔ ∃ n seq, objectSeq id = .ok n ∧ storedInt n = some seq ∧
      ws = [.vertex vertex.key (some (store.placeholderRow id seq))] := by
  unfold stub
  constructor
  · intro hplan
    obtain ⟨n, hn, hplan⟩ := bind_eq_ok.mp hplan
    obtain ⟨row, hrow, hplan⟩ := bind_eq_ok.mp hplan
    obtain ⟨seq, hseq, rfl⟩ := stored_placeholderRow.mp hrow
    exact ⟨n, seq, hn, hseq, (pure_eq_ok.mp hplan).symm⟩
  · rintro ⟨n, seq, hn, hseq, rfl⟩
    exact bind_eq_ok.mpr ⟨n, hn, bind_eq_ok.mpr ⟨_, stored_placeholderRow.mpr ⟨seq, hseq, rfl⟩, rfl⟩⟩

variable (sdk i ws) in
/-- One endpoint: what the transaction sees of it decides whether it gets a placeholder. -/
lemma alone_ensurePlaceholder (hsha : CollisionFree env)
    (ht : Placed env ((engine sdk).applyAll ws db.tables)) (h : store.At env g) {id : String}
    {vertex : RecordId .agVertex} (hkey : vertexKey env g id = .ok vertex) :
    alone sdk i (ensurePlaceholderInTransaction vertex id) store (during i db ws) =
      (((store.endpointPlan sdk ((engine sdk).applyAll ws db.tables) vertex id).map fun _ => (),
        store), during i db (ws ++ (store.endpointPlan sdk ((engine sdk).applyAll ws db.tables)
          vertex id).toOption.getD [])) := by
  unfold ensurePlaceholderInTransaction endpointPlan
  rw [alone_bind, alone_txQuery sdk i store rfl, aloneThen_ok, List.append_nil]
  cases hrow : ((engine sdk).applyAll ws db.tables).vertex.lookup vertex.key with
  | some row =>
    obtain ⟨haddress, hid⟩ := vertex_fields hsha ht hkey hrow
    have hscope : (row.scope, row.runId) = store.address := haddress.trans h.address.symm
    have hids : ∀ ids ∈ some (row.objectId, id), ids.1 = ids.2 := by simp [hid]
    rw [alone_assertScopedRow hscope hids]
    simp [Except.map, Except.toOption]
  | none =>
    rw [alone_placeholderContent, alone_bind, alone_lift]
    cases hseq : objectSeq id with
    | error e =>
      rw [stub_error hseq, aloneThen_error]
      simp [Except.map, Except.toOption]
    | ok seq =>
      have hcontent := vertexKey_content h hkey (show ((store.placeholderRow id seq).scope,
        (store.placeholderRow id seq).runId) = store.address from rfl) rfl
      have hexec := exec_createVertex sdk ht hcontent hrow
      rw [stub_ok hseq, aloneThen_ok]
      cases hstored : (store.placeholderRow id seq).stored sdk with
      | error e =>
        rw [hstored] at hexec
        rw [alone_txQuery_error sdk i store hexec]
        simp [Except.map, Except.toOption]
      | ok row =>
        rw [hstored] at hexec
        rw [alone_txQuery sdk i store hexec]
        rfl

/-- The writes of an endpoint leave every row in its place. -/
lemma placed_endpoint (ht : Placed env t) (h : store.At env g) {id : String}
    {vertex : RecordId .agVertex} (hkey : vertexKey env g id = .ok vertex)
    (hplan : store.endpointPlan sdk t vertex id = .ok ws) :
    Placed env ((engine sdk).applyAll ws t) := by
  have haddress := h.address
  subst haddress
  unfold endpointPlan at hplan
  split at hplan
  · obtain ⟨n, seq, -, -, rfl⟩ := stub_iff.mp hplan
    have hwithin : (Write.vertex vertex.key (some (store.placeholderRow id seq))).Within env
        store.address := by
      refine ⟨id, hkey, fun row hrow => ?_⟩
      obtain rfl := Option.some.inj hrow
      exact ⟨rfl, rfl⟩
    exact placed_apply ht hwithin
  · obtain rfl := Except.ok.inj hplan
    exact ht

theorem does_putRelation (hsha : CollisionFree env) (ht : Placed env db.tables)
    (h : store.Readable env g db.tables) (rel : Relation F X) :
    Does sdk i (putRelation env rel) store db (store.putRelationPlan env sdk db.tables rel) := by
  unfold putRelation putRelationPlan
  refine does_then (alone_assertReadable hsha ht h) ?_
  rw [h.address]
  refine does_bind (alone_vertexRecordId h.toAt _) fun source hsource => ?_
  refine does_bind (alone_vertexRecordId h.toAt _) fun target htarget => ?_
  refine does_bind (alone_relationRecordId h.toAt _) fun relation hrelation => ?_
  apply does_transaction
  unfold relationTransaction transactionPlan
  refine carries_then (alone_get ..) ?_
  refine carries_bind (alone_ensurePlaceholder sdk i [] hsha ht h.toAt hsource) fun ws hws => ?_
  have hplaced := placed_endpoint ht h.toAt hsource hws
  refine carries_bind (alone_ensurePlaceholder sdk i _ hsha hplaced h.toAt htarget)
    fun ws' hws' => ?_
  have hplaced' := placed_endpoint hplaced h.toAt htarget hws'
  refine carries_then (alone_txQuery sdk i store rfl) ?_
  refine carries_lift fun record hrecord => ?_
  have hrecordId := (relationToRecord_fields hrecord).1
  have hcontent : relationKey env
      ((store.relationContent source target record).scope,
        (store.relationContent source target record).runId)
      (store.relationContent source target record).relationId = .ok relation := by
    change relationKey env store.address record.relationId = _
    rw [hrecordId, h.address]
    exact hrelation
  have hexec := exec_insertRelation sdk hplaced' hcontent
  rw [← Engine.applyAll_append, ← Engine.applyAll_append, ← List.append_assoc] at hexec
  refine carries_then (alone_txQuery sdk i store hexec) ?_
  have hwrites : ws ++ ws' ++ store.relationWrites source target relation record =
      [] ++ ws ++ ws' ++ [Write.relation relation.key none] ++
        [Write.relation relation.key (some (store.relationContent source target record))] := by
    simp [relationWrites]
  rw [hwrites]
  exact carries_commit

theorem does_removeRelation (hsha : CollisionFree env) (ht : Placed env db.tables)
    (h : store.Readable env g db.tables) (id : String) :
    Does sdk i (removeRelation env id) store db (store.removeRelationPlan env id) := by
  unfold removeRelation removeRelationPlan
  refine does_then (alone_assertReadable hsha ht h) ?_
  rw [h.address]
  refine does_bind (alone_relationRecordId h.toAt id) fun relation _ => ?_
  exact does_ok (alone_write rfl) (tables_commit sdk)

theorem does_putPatch (hsha : CollisionFree env) (ht : Placed env db.tables)
    (h : store.Readable env g db.tables) (patch : Patch F X) :
    Does sdk i (putPatch env patch) store db (store.putPatchPlan env sdk patch) := by
  unfold putPatch putPatchPlan
  refine does_then (alone_assertReadable hsha ht h) (does_then (alone_get ..) ?_)
  rw [h.address]
  refine does_bind (alone_patchRecordId h.toAt patch.id) fun record hkey => ?_
  refine does_bind (alone_lift ..) fun content hcontent => ?_
  have hplace : patchKey env ((store.patchContent content).scope,
      (store.patchContent content).runId) (store.patchContent content).patchId = .ok record := by
    change patchKey env store.address content.patchId = _
    rw [patchToRecord_id hcontent, h.address]
    exact hkey
  have hexec := exec_upsertPatch sdk ht hplace
  cases hrow : (store.patchContent content).stored sdk with
  | error e =>
    rw [hrow] at hexec
    exact does_error (alone_refused hexec) rfl
  | ok row =>
    rw [hrow] at hexec
    exact does_ok (alone_write hexec) (tables_commit sdk)

theorem does_removePatch (hsha : CollisionFree env) (ht : Placed env db.tables)
    (h : store.Readable env g db.tables) (id : String) :
    Does sdk i (removePatch env id) store db (store.removePatchPlan env id) := by
  unfold removePatch removePatchPlan
  refine does_then (alone_assertReadable hsha ht h) ?_
  rw [h.address]
  refine does_bind (alone_patchRecordId h.toAt id) fun record _ => ?_
  exact does_ok (alone_write rfl) (tables_commit sdk)

/-! ### What a plan can be -/

/-- The row of an object is the content of the object with the version that its field holds. -/
lemma putObjectPlan_iff {obj : Object F X} :
    store.putObjectPlan env sdk obj = .ok ws ↔ ∃ n seq version record vertex,
      objectSeq obj.id = .ok n ∧ storedInt n = some seq ∧ storedInt obj.version = some version ∧
      objectToRecord env { obj with version } = .ok record ∧
      vertexKey env store.address obj.id = .ok vertex ∧
      ws = [.vertex vertex.key (some (store.objectContent seq record))] := by
  unfold putObjectPlan
  constructor
  · intro hplan
    obtain ⟨n, hn, hplan⟩ := bind_eq_ok.mp hplan
    obtain ⟨record, hrecord, hplan⟩ := bind_eq_ok.mp hplan
    obtain ⟨vertex, hkey, hplan⟩ := bind_eq_ok.mp hplan
    obtain ⟨row, hrow, hplan⟩ := bind_eq_ok.mp hplan
    obtain ⟨seq, version, hseq, hversion, rfl⟩ := stored_objectContent.mp hrow
    rw [objectToRecord_version hrecord] at hversion
    refine ⟨n, seq, version, { record with version }, vertex, hn, hseq, hversion, ?_, hkey,
      (pure_eq_ok.mp hplan).symm⟩
    rw [objectToRecord_with, hrecord]
    rfl
  · rintro ⟨n, seq, version, record, vertex, hn, hseq, hversion, hrecord, hkey, rfl⟩
    rw [objectToRecord_with] at hrecord
    obtain ⟨original, horiginal, rfl⟩ := map_eq_ok.mp hrecord
    refine bind_eq_ok.mpr ⟨n, hn, bind_eq_ok.mpr ⟨original, horiginal, ?_⟩⟩
    refine bind_eq_ok.mpr ⟨vertex, hkey, bind_eq_ok.mpr ⟨_, stored_objectContent.mpr ?_, rfl⟩⟩
    rw [← objectToRecord_version horiginal] at hversion
    exact ⟨seq, version, hseq, hversion, rfl⟩

lemma putPatchPlan_iff {patch : Patch F X} :
    store.putPatchPlan env sdk patch = .ok ws ↔ ∃ expectedVersion record content,
      storedInt patch.expectedVersion = some expectedVersion ∧
      patchKey env store.address patch.id = .ok record ∧
      patchToRecord env { patch with expectedVersion } = .ok content ∧
      ws = [.patch record.key (some (store.patchContent content))] := by
  unfold putPatchPlan
  constructor
  · intro hplan
    obtain ⟨record, hkey, hplan⟩ := bind_eq_ok.mp hplan
    obtain ⟨content, hcontent, hplan⟩ := bind_eq_ok.mp hplan
    obtain ⟨row, hrow, hplan⟩ := bind_eq_ok.mp hplan
    obtain ⟨expectedVersion, hversion, rfl⟩ := PatchRow.stored_eq_ok.mp hrow
    change storedInt content.expectedVersion = _ at hversion
    rw [patchToRecord_version hcontent] at hversion
    refine ⟨expectedVersion, record, { content with expectedVersion }, hversion, hkey, ?_,
      (pure_eq_ok.mp hplan).symm⟩
    rw [patchToRecord_with, hcontent]
    rfl
  · rintro ⟨expectedVersion, record, content, hversion, hkey, hcontent, rfl⟩
    rw [patchToRecord_with] at hcontent
    obtain ⟨original, horiginal, rfl⟩ := map_eq_ok.mp hcontent
    rw [← patchToRecord_version horiginal] at hversion
    refine bind_eq_ok.mpr ⟨record, hkey, bind_eq_ok.mpr ⟨original, horiginal, ?_⟩⟩
    exact bind_eq_ok.mpr ⟨_, PatchRow.stored_eq_ok.mpr ⟨expectedVersion, hversion, rfl⟩, rfl⟩

lemma removeObjectPlan_iff {id : String} : store.removeObjectPlan env sdk t id = .ok ws ↔
    ∃ vertex, vertexKey env store.address id = .ok vertex ∧
      (t.vertex.lookup vertex.key = none ∧ ws = [] ∨
        t.vertex.lookup vertex.key ≠ none ∧ store.stub sdk vertex id = .ok ws) := by
  unfold removeObjectPlan
  rw [bind_eq_ok]
  refine exists_congr fun vertex => and_congr_right fun _ => ?_
  split
  · next hnone => simp [hnone, pure, Except.pure, eq_comm]
  · next hsome => simp [hsome]

lemma endpointPlan_iff {vertex : RecordId .agVertex} {id : String} :
    store.endpointPlan sdk t vertex id = .ok ws ↔
      t.vertex.lookup vertex.key ≠ none ∧ ws = [] ∨
      t.vertex.lookup vertex.key = none ∧ store.stub sdk vertex id = .ok ws := by
  unfold endpointPlan
  split
  · next hnone => simp [hnone]
  · next hsome => simp [hsome, eq_comm]

lemma transactionPlan_iff {rel : Relation F X} {source target : RecordId .agVertex}
    {relation : RecordId .agRelation} :
    store.transactionPlan env sdk t rel source target relation = .ok ws ↔
      ∃ first second record, store.endpointPlan sdk t source rel.source = .ok first ∧
        store.endpointPlan sdk ((engine sdk).applyAll first t) target rel.target = .ok second ∧
        relationToRecord env rel = .ok record ∧
        ws = first ++ second ++ store.relationWrites source target relation record := by
  unfold transactionPlan
  simp only [bind_eq_ok, pure_eq_ok, exists_and_left]
  simp only [eq_comm]

lemma putRelationPlan_iff {rel : Relation F X} : store.putRelationPlan env sdk t rel = .ok ws ↔
    ∃ source target relation, vertexKey env store.address rel.source = .ok source ∧
      vertexKey env store.address rel.target = .ok target ∧
      relationKey env store.address rel.id = .ok relation ∧
      store.transactionPlan env sdk t rel source target relation = .ok ws := by
  unfold putRelationPlan
  simp only [bind_eq_ok, exists_and_left]

end GraphStore

end ActiveGraphSurreal
