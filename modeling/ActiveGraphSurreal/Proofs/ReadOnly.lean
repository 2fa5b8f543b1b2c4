import ActiveGraphSurreal.Library.Confined
import ActiveGraphSurreal.Proofs.Running

/-!
# Methods that only read

A method that makes reading queries only leaves the database and its object as they are. The
readers of the log see the run record and the event rows and nothing else.
-/

namespace ActiveGraphSurreal

open Library

set_option linter.unusedSectionVars false

section makes

variable {ℓ α β : Type} {P : Stmt → Prop} {sdk : Sdk}

/-- The method makes queries of the kind only and leaves the local state as it is. -/
def Makes (P : Stmt → Prop) (m : Py ℓ α) : Prop :=
  ∀ l, (m l).CallsTo (fun c => ∃ st, c = .query st ∧ P st) fun x => x.2 = l

/-- The method only reads. -/
abbrev ReadsOnly (sdk : Sdk) (m : Py ℓ α) : Prop := Makes (engine sdk).Reads m

lemma makes_pure (a : α) : Makes P (pure a : Py ℓ α) := fun _ => rfl

lemma makes_throw (e : PyErr) : Makes P (throw e : Py ℓ α) := fun _ => rfl

lemma makes_lift (x : Except PyErr α) : Makes P (lift x : Py ℓ α) := by
  intro l
  cases x with
  | error e => rfl
  | ok a => rfl

lemma makes_query {st : Stmt} (hst : P st) : Makes P (query st : Py ℓ st.Reply) :=
  fun _ => ⟨⟨st, rfl, hst⟩, fun _ => rfl⟩

lemma Makes.bind {m : Py ℓ α} {f : α → Py ℓ β} (hm : Makes P m) (hf : ∀ a, Makes P (f a)) :
    Makes P (m >>= f) := by
  intro l
  apply Prog.callsTo_bind_iff.mpr
  refine (hm l).mono (fun _ => id) ?_
  rintro ⟨e | a, l'⟩ rfl
  · rfl
  · exact hf a _

lemma Makes.get {f : ℓ → Py ℓ β} (hf : ∀ self, Makes P (f self)) : Makes P (get >>= f) :=
  fun l => hf l l

lemma Makes.mono {P' : Stmt → Prop} (hP : ∀ st, P st → P' st) {m : Py ℓ α} (hm : Makes P m) :
    Makes P' m := by
  intro l
  refine (hm l).mono ?_ fun _ => id
  rintro c ⟨st, rfl, hst⟩
  exact ⟨st, rfl, hP st hst⟩

variable {φ : Faults PyErr} {i : Nat} {l : ℓ} {db : Database}

lemma still_bind {m : Py ℓ α} {f : α → Py ℓ β} (hm : ReadsOnly sdk m)
    (hf : ∀ a, (f a l).Always ((engine sdk).serve φ i) (fun _ db' => db' = db) db) :
    ((m >>= f) l).Always ((engine sdk).serve φ i) (fun _ db' => db' = db) db := by
  refine Method.always_bind (always_reads (hm l) db) ?_ fun _ _ _ h => h.1
  rintro a l' db' ⟨rfl, hl⟩
  obtain rfl : l' = l := hl
  exact hf a

lemma still_get {f : ℓ → Py ℓ β}
    (hf : (f l l).Always ((engine sdk).serve φ i) (fun _ db' => db' = db) db) :
    ((get >>= f) l).Always ((engine sdk).serve φ i) (fun _ db' => db' = db) db := hf

end makes

/-- Among others, a reader sees what the others do and no more. -/
lemma always_amid_reads {ℓ α : Type} {sdk : Sdk} {φ : Faults PyErr} {i : Nat}
    {others : Database → Database → Prop} (hrefl : ∀ db, others db db)
    (htrans : ∀ a b c, others a b → others b c → others a c) {m : Py ℓ α} (hm : ReadsOnly sdk m)
    (l : ℓ) (db : Database) : (m l).Always (amid others ((engine sdk).serve φ i))
      (fun x db' => others db db' ∧ x.2 = l) db := by
  have hprog : ∀ (p : Prog Call Answer (Except PyErr α × ℓ)) (db : Database),
      p.CallsTo (engine sdk).ReadCall (fun x => x.2 = l) →
      p.Always (amid others ((engine sdk).serve φ i)) (fun x db' => others db db' ∧ x.2 = l) db := by
    intro p
    induction p with
    | done a => exact fun db hend => ⟨hrefl db, hend⟩
    | call c k ih =>
      rintro db ⟨hc, hk⟩ r db' ⟨db₁, h₁, hs⟩
      obtain rfl := hc.still hs
      exact (ih r db' (hk r)).mono fun x db'' h => ⟨htrans _ _ _ h₁ h.1, h.2⟩
  exact hprog _ db (hm l)

/-! ### Readers of the log -/

def Stmt.OnLog : Stmt → Prop
  | .selectRun _ | .selectEvents _ _ => True
  | _ => False

variable {sdk : Sdk} {F X : Type} [Json.ScalarText F] {env : Env F X}

lemma reads_onLog {st : Stmt} (hst : st.OnLog) : (engine sdk).Reads st := by
  intro t r ws hexec
  cases st with
  | selectRun record => exact (Prod.mk.inj (Except.ok.inj hexec)).2.symm
  | selectEvents scope runId => exact (Prod.mk.inj (Except.ok.inj hexec)).2.symm
  | _ => exact hst.elim

/-- On the same ledger a reader of the log returns the same. -/
lemma alone_onLog {ℓ α : Type} {i : Nat} {m : Py ℓ α} (hm : Makes Stmt.OnLog m) (l : ℓ)
    {db db' : Database} (hrun : db.tables.run = db'.tables.run)
    (hevent : db.tables.event = db'.tables.event) :
    (alone sdk i m l db).1 = (alone sdk i m l db').1 ∧ (alone sdk i m l db).2 = db := by
  have hprog : ∀ p : Prog Call Answer (Except PyErr α × ℓ),
      p.CallsTo (fun c => ∃ st, c = .query st ∧ st.OnLog) (fun x => x.2 = l) →
      (p.run ((engine sdk).perform i) db).1 = (p.run ((engine sdk).perform i) db').1 ∧
      (p.run ((engine sdk).perform i) db).2 = db := by
    intro p
    induction p with
    | done a => exact fun _ => ⟨rfl, rfl⟩
    | call c k ih =>
      rintro ⟨⟨st, rfl, hst⟩, hk⟩
      have hexec : st.exec sdk db.tables = st.exec sdk db'.tables := by
        cases st with
        | selectRun record =>
          simp only [Stmt.exec]
          rw [hrun]
        | selectEvents scope runId =>
          simp only [Stmt.exec, Tables.eventRows]
          rw [hevent]
        | _ => exact hst.elim
      have hanswer : ((engine sdk).perform i (.query st) db).1 =
          ((engine sdk).perform i (.query st) db').1 := by
        simp only [Engine.perform, engine]
        rw [← hexec]
        cases st.exec sdk db.tables with
        | error e => rfl
        | ok x => rfl
      unfold Prog.run
      rw [perform_reads (reads_onLog hst), perform_reads (reads_onLog hst), ← hanswer]
      exact ih _ (hk _)
  exact hprog _ (hm l)

/-- What a reader of the log returns, it returns on every database with the same ledger. -/
lemma alone_sameLog {ℓ α : Type} {i : Nat} {m : Py ℓ α} (hm : Makes Stmt.OnLog m) {l : ℓ}
    {db db' : Database} (hrun : db.tables.run = db'.tables.run)
    (hevent : db.tables.event = db'.tables.event) {x : Except PyErr α × ℓ}
    (hx : (alone sdk i m l db).1 = x) : alone sdk i m l db' = (x, db') := by
  have hsame : (alone sdk i m l db).1 = (alone sdk i m l db').1 := (alone_onLog hm l hrun hevent).1
  have hstill : (alone sdk i m l db').2 = db' := (alone_onLog hm l hrun.symm hevent.symm).2
  exact Prod.ext (hsame.symm.trans hx) hstill

namespace EventStore

lemma makes_ensureOpen {P : Stmt → Prop} : Makes P ensureOpen := Makes.get fun _ => makes_lift _

lemma makes_verifiedRowsAndRun : Makes Stmt.OnLog (verifiedRowsAndRun env) := by
  have hrow : Makes Stmt.OnLog readRunRow := by
    unfold readRunRow
    refine Makes.get fun self => (makes_query trivial).bind fun row => ?_
    cases row with
    | none => exact makes_pure _
    | some row => exact (makes_lift _).bind fun _ => makes_pure _
  unfold verifiedRowsAndRun
  refine Makes.get fun self => makes_ensureOpen.bind fun _ => ?_
  exact (makes_query trivial).bind fun rows => hrow.bind fun run => makes_lift _

lemma makes_iterEvents (after until_ : Option String) :
    Makes Stmt.OnLog (iterEvents env after until_) := by
  unfold iterEvents
  exact Makes.get fun self => makes_verifiedRowsAndRun.bind fun verified => makes_lift _

lemma readsOnly_verifiedRowsAndRun : ReadsOnly sdk (verifiedRowsAndRun env) :=
  makes_verifiedRowsAndRun.mono fun _ => reads_onLog

lemma readsOnly_assertExpectedHead (head : RunRow) :
    ReadsOnly sdk (assertExpectedHead env head) := Makes.get fun _ => makes_lift _

end EventStore

end ActiveGraphSurreal
