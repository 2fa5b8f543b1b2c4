import ActiveGraphSurreal.EventStore

/-!
# Running a method alone

`alone` runs a method against a database that carries out every call and serves nobody
else. Its equations run the parts of a method one after the other.
-/

namespace ActiveGraphSurreal

open Library

variable {ℓ α β : Type} (sdk : Sdk) (i : Nat)

def alone (m : Py ℓ α) (l : ℓ) (db : Database) : (Except PyErr α × ℓ) × Database :=
  (m l).run ((engine sdk).perform i) db

/-- The rest of a sequence, run after its first part. -/
def aloneThen (f : α → Py ℓ β) : (Except PyErr α × ℓ) × Database →
    (Except PyErr β × ℓ) × Database
  | ((.ok a, l), db) => alone sdk i (f a) l db
  | ((.error e, l), db) => ((.error e, l), db)

def aloneElse (onError : PyErr → Py ℓ β) (onOk : α → Py ℓ β) :
    (Except PyErr α × ℓ) × Database → (Except PyErr β × ℓ) × Database
  | ((.ok a, l), db) => alone sdk i (onOk a) l db
  | ((.error e, l), db) => alone sdk i (onError e) l db

variable (l : ℓ) (db : Database)

@[simp] lemma alone_bind (m : Py ℓ α) (f : α → Py ℓ β) :
    alone sdk i (m >>= f) l db = aloneThen sdk i f (alone sdk i m l db) := by
  unfold alone
  change ((m l).bind (Method.andThen f)).run _ db = _
  rw [Prog.run_bind]
  rcases (m l).run ((engine sdk).perform i) db with ⟨⟨_ | a, l'⟩, db'⟩
  · rfl
  · rfl

@[simp] lemma alone_tryElse (m : Py ℓ α) (onError : PyErr → Py ℓ β) (onOk : α → Py ℓ β) :
    alone sdk i (Method.tryElse m onError onOk) l db =
      aloneElse sdk i onError onOk (alone sdk i m l db) := by
  unfold alone Method.tryElse
  rw [Prog.run_bind]
  rcases (m l).run ((engine sdk).perform i) db with ⟨⟨_ | a, l'⟩, db'⟩
  · rfl
  · rfl

@[simp] lemma alone_tryCatch (m : Py ℓ α) (f : PyErr → Py ℓ α) :
    alone sdk i (tryCatch m f) l db = aloneElse sdk i f pure (alone sdk i m l db) := by
  unfold alone
  change ((m l).bind (Method.orElse f)).run _ db = _
  rw [Prog.run_bind]
  rcases (m l).run ((engine sdk).perform i) db with ⟨⟨_ | a, l'⟩, db'⟩
  · rfl
  · rfl

@[simp] lemma aloneThen_ok (f : α → Py ℓ β) (a : α) :
    aloneThen sdk i f ((.ok a, l), db) = alone sdk i (f a) l db := rfl

@[simp] lemma aloneThen_error (f : α → Py ℓ β) (e : PyErr) :
    aloneThen sdk i f ((.error e, l), db) = ((.error e, l), db) := rfl

@[simp] lemma aloneElse_ok (onError : PyErr → Py ℓ β) (onOk : α → Py ℓ β) (a : α) :
    aloneElse sdk i onError onOk ((.ok a, l), db) = alone sdk i (onOk a) l db := rfl

@[simp] lemma aloneElse_error (onError : PyErr → Py ℓ β) (onOk : α → Py ℓ β) (e : PyErr) :
    aloneElse sdk i onError onOk ((.error e, l), db) = alone sdk i (onError e) l db := rfl

@[simp] lemma alone_pure (a : α) : alone sdk i (pure a : Py ℓ α) l db = ((.ok a, l), db) := rfl

@[simp] lemma alone_throw (e : PyErr) :
    alone sdk i (throw e : Py ℓ α) l db = ((.error e, l), db) := rfl

@[simp] lemma alone_get : alone sdk i (get : Py ℓ ℓ) l db = ((.ok l, l), db) := rfl

@[simp] lemma alone_modify (f : ℓ → ℓ) :
    alone sdk i (modify f : Py ℓ Unit) l db = ((.ok (), f l), db) := rfl

@[simp] lemma alone_lift (x : Except PyErr α) :
    alone sdk i (lift x : Py ℓ α) l db = ((x, l), db) := by
  cases x with
  | error e => rfl
  | ok a => rfl

variable {l db} in
lemma alone_raises {bad : Prop} [Decidable bad] (h : bad) (e : PyErr) :
    alone sdk i (lift (raiseIf bad e) : Py ℓ Unit) l db = ((.error e, l), db) := by
  rw [alone_lift, raiseIf, if_pos h]

variable {l db} in
lemma alone_passes {bad : Prop} [Decidable bad] (h : ¬ bad) (e : PyErr) :
    alone sdk i (lift (raiseIf bad e) : Py ℓ Unit) l db = ((.ok (), l), db) := by
  rw [alone_lift, raiseIf, if_neg h]

lemma alone_query (st : Stmt) : alone sdk i (query st : Py ℓ st.Reply) l db =
    ((((engine sdk).perform i (.query st) db).1, l), ((engine sdk).perform i (.query st) db).2) :=
  rfl

/-- A query that only reads. -/
lemma alone_read {st : Stmt} {r : st.Reply} (h : st.exec sdk db.tables = .ok (r, [])) :
    alone sdk i (query st : Py ℓ st.Reply) l db = ((.ok r, l), db) := by
  rw [alone_query]
  simp only [Engine.perform, engine, h, Engine.commit]

variable {sdk i l db} in
/-- A query that the database carries out. -/
lemma alone_write {st : Stmt} {r : st.Reply} {ws : List Write}
    (h : st.exec sdk db.tables = .ok (r, ws)) :
    alone sdk i (query st) l db = ((.ok r, l), (engine sdk).commit ws db) := by
  rw [alone_query]
  simp only [Engine.perform, engine, h]

variable {sdk i l db} in
/-- A query that the database refuses. -/
lemma alone_refused {st : Stmt} {e : PyErr} (h : st.exec sdk db.tables = .error e) :
    alone sdk i (query st) l db = ((.error e, l), db) := by
  rw [alone_query]
  simp only [Engine.perform, engine, h]

variable {sdk i} in
/-- A program that runs alone is one of its executions. -/
lemma exec_alone {α : Type} (p : Prog Call Answer α) (db : Database) :
    p.Exec ((engine sdk).serve (faults True False) i) db (p.history ((engine sdk).perform i) db)
      (p.run ((engine sdk).perform i) db).1 (p.run ((engine sdk).perform i) db).2 :=
  Prog.exec_run (fun _ _ => .inl rfl) p db

/-! ### A transaction -/

/-- The database during a transaction that began in it and has made some writes. -/
def during (i : Nat) (db : Database) (ws : List Write) : Database :=
  { db with tx := Function.update db.tx i (some ⟨db.tables, db.log.length, ws⟩) }

/-- The database after a transaction that has been given up. -/
def withdrawn (i : Nat) (db : Database) : Database := { db with tx := Function.update db.tx i none }

variable {db : Database} {ws : List Write} {st : Stmt}

lemma during_tx : (during i db ws).tx i = some ⟨db.tables, db.log.length, ws⟩ :=
  Function.update_self ..

lemma alone_begin : alone sdk i beginTransaction l db = ((.ok (), l), during i db []) := rfl

lemma alone_txQuery {r : st.Reply} {ws' : List Write}
    (h : st.exec sdk ((engine sdk).applyAll ws db.tables) = .ok (r, ws')) :
    alone sdk i (txQuery st) l (during i db ws) = ((.ok r, l), during i db (ws ++ ws')) := by
  have hperform : (engine sdk).perform i (.txQuery st) (during i db ws) =
      (.ok r, during i db (ws ++ ws')) := by
    rw [(engine sdk).perform_txQuery_ok (during_tx i) h]
    simp only [during, Function.update_idem]
  change (((_ : Except PyErr st.Reply × Database).1, l), _) = _
  rw [hperform]

lemma alone_txQuery_error {e : PyErr}
    (h : st.exec sdk ((engine sdk).applyAll ws db.tables) = .error e) :
    alone sdk i (txQuery st) l (during i db ws) = ((.error e, l), during i db ws) := by
  have hperform : (engine sdk).perform i (.txQuery st) (during i db ws) =
      (.error e, during i db ws) :=
    (engine sdk).perform_txQuery_error (during_tx i) h
  change (((_ : Except PyErr st.Reply × Database).1, l), _) = _
  rw [hperform]

/-- Nobody else has committed since the transaction began. -/
lemma alone_commit : alone sdk i commit l (during i db ws) =
    ((.ok (), l), (engine sdk).commit ws (withdrawn i db)) := by
  have hfree : (engine sdk).conflicts (during i db ws) ⟨db.tables, db.log.length, ws⟩ = false := by
    simp [Engine.conflicts, during]
  have hperform : (engine sdk).perform i .commit (during i db ws) =
      (.ok (), (engine sdk).commit ws (withdrawn i db)) := by
    rw [(engine sdk).perform_commit (during_tx i), hfree]
    simp only [during, withdrawn, Function.update_idem, Bool.false_eq_true, if_false]
  change (((_ : Except PyErr Unit × Database).1, l), _) = _
  rw [hperform]

lemma alone_cancelSafely :
    alone sdk i cancelSafely l (during i db ws) = ((.ok (), l), withdrawn i db) := by
  change ((Except.ok (), l), { during i db ws with
    tx := Function.update (during i db ws).tx i none }) = _
  simp only [during, withdrawn, Function.update_idem]

lemma tables_commit : ((engine sdk).commit ws db).tables = (engine sdk).applyAll ws db.tables := by
  cases ws with
  | nil => rfl
  | cons w ws => rfl

end ActiveGraphSurreal
