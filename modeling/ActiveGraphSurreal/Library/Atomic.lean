import ActiveGraphSurreal.Library.Confined

/-!
# Methods that raise without effect

A method is still when it leaves the tables as they are, and clean when it does so whenever
it raises. One write at the end of a still method is clean, and so is one transaction, as
long as no call takes effect without an answer.
-/

namespace Library

variable {ι T W K ε Q α β ℓ : Type} {Rep : Q → Type} {E : Engine T W K ε Q Rep}
  [DecidableEq ι] [DecidableEq K] {φ : Faults ε} {i : ι}

/-- The method leaves the tables as they are. -/
def Still (E : Engine T W K ε Q Rep) (φ : Faults ε) (i : ι)
    (m : Method (DbCall Q) (DbAnswer ε Rep) ε ℓ α) : Prop :=
  ∀ l db, (m l).Always (E.serve φ i) (fun _ db' => db'.tables = db.tables) db

/-- The method leaves the tables as they are when it raises. -/
def Clean (E : Engine T W K ε Q Rep) (φ : Faults ε) (i : ι)
    (m : Method (DbCall Q) (DbAnswer ε Rep) ε ℓ α) : Prop :=
  ∀ l db, (m l).Always (E.serve φ i)
    (fun x db' => ∀ e, x.1 = .error e → db'.tables = db.tables) db

/-! ### Still methods -/

lemma Still.clean {m : Method (DbCall Q) (DbAnswer ε Rep) ε ℓ α} (hm : Still E φ i m) :
    Clean E φ i m := fun l db => (hm l db).mono fun _ _ h _ _ => h

lemma still_pure (a : α) : Still E φ i (pure a : Method (DbCall Q) (DbAnswer ε Rep) ε ℓ α) :=
  fun _ _ => rfl

lemma still_throw (e : ε) : Still E φ i (throw e : Method (DbCall Q) (DbAnswer ε Rep) ε ℓ α) :=
  fun _ _ => rfl

lemma still_lift (x : Except ε α) :
    Still E φ i (Method.lift x : Method (DbCall Q) (DbAnswer ε Rep) ε ℓ α) :=
  fun _ _ => Method.always_lift rfl

lemma Still.get {f : ℓ → Method (DbCall Q) (DbAnswer ε Rep) ε ℓ α}
    (hf : ∀ l, Still E φ i (f l)) : Still E φ i (get >>= f) := fun l db => hf l l db

lemma Still.bind {m : Method (DbCall Q) (DbAnswer ε Rep) ε ℓ α}
    {f : α → Method (DbCall Q) (DbAnswer ε Rep) ε ℓ β} (hm : Still E φ i m)
    (hf : ∀ a, Still E φ i (f a)) : Still E φ i (m >>= f) := by
  intro l db
  refine Method.always_bind (hm l db) ?_ fun e l' db' h => h
  intro a l' db' h
  rw [← h]
  exact hf a l' db'

/-- A call that changes no table when it is carried out changes none when it fails. -/
lemma still_call {c : DbCall Q} {k : DbAnswer ε Rep c → Except ε α}
    (hc : ∀ db : Db ι T W K, (E.perform i c db).2.tables = db.tables) :
    Still E φ i (fun l : ℓ => .call c fun r => .done (k r, l)) := by
  intro l db r db' hs
  rcases hs with h | ⟨e, -, -, ⟨-, rfl⟩ | ⟨-, rfl⟩⟩
  · obtain rfl : db' = (E.perform i c db).2 := congrArg Prod.snd h
    exact hc db
  · rfl
  · exact hc db

lemma perform_txQuery_tables (q : Q) (db : Db ι T W K) :
    (E.perform i (.txQuery q) db).2.tables = db.tables := by
  rcases E.perform_tables i (.txQuery q) db with ⟨h, -⟩ | ⟨_, _, _, hc, -⟩ | ⟨_, hc, -⟩
  · exact h
  · cases hc
  · cases hc

/-! ### Clean methods -/

lemma Clean.get {f : ℓ → Method (DbCall Q) (DbAnswer ε Rep) ε ℓ α}
    (hf : ∀ l, Clean E φ i (f l)) : Clean E φ i (get >>= f) := fun l db => hf l l db

/-- Nothing has happened before the clean part begins. -/
lemma Still.then {m : Method (DbCall Q) (DbAnswer ε Rep) ε ℓ α}
    {f : α → Method (DbCall Q) (DbAnswer ε Rep) ε ℓ β} (hm : Still E φ i m)
    (hf : ∀ a, Clean E φ i (f a)) : Clean E φ i (m >>= f) := by
  intro l db
  refine Method.always_bind (hm l db) ?_ fun e l' db' h _ _ => h
  intro a l' db' h
  rw [← h]
  exact hf a l' db'

/-- After a clean part that has raised, nothing happens in a still handler. -/
lemma Clean.tryCatch {m : Method (DbCall Q) (DbAnswer ε Rep) ε ℓ α}
    {f : ε → Method (DbCall Q) (DbAnswer ε Rep) ε ℓ α} (hm : Clean E φ i m)
    (hf : ∀ e, Still E φ i (f e)) : Clean E φ i (tryCatch m f) := by
  intro l db
  apply Prog.always_bind_iff.mpr
  refine (hm l db).mono ?_
  rintro ⟨e | a, l'⟩ db' h
  · have htables : db'.tables = db.tables := h e rfl
    rw [← htables]
    exact (hf e l' db').mono fun _ _ h _ _ => h
  · intro e he
    cases he

/-- A call that raises has changed no table. -/
lemma clean_call (hφ : ¬ φ.lostAnswer) {c : DbCall Q} {k : DbAnswer ε Rep c → Except ε α}
    (hc : ∀ (db : Db ι T W K) e, k (E.perform i c db).1 = .error e →
      (E.perform i c db).2.tables = db.tables) :
    Clean E φ i (fun l : ℓ => .call c fun r => .done (k r, l)) := by
  intro l db r db' hs e he
  rcases hs with h | ⟨e, -, -, ⟨-, rfl⟩ | ⟨hlost, -⟩⟩
  · obtain ⟨rfl, rfl⟩ := Prod.mk.inj h
    exact hc db e he
  · rfl
  · exact absurd hlost hφ

lemma perform_query_error {q : Q} {db : Db ι T W K} {e : ε}
    (h : (E.perform i (.query q) db).1 = .error e) :
    (E.perform i (.query q) db).2.tables = db.tables := by
  cases hexec : E.exec q db.tables with
  | error e => simp only [Engine.perform, hexec]
  | ok x =>
    simp only [Engine.perform, hexec] at h
    cases h

lemma perform_commit_error {db : Db ι T W K} {e : ε} (h : (E.perform i .commit db).1 = .error e) :
    (E.perform i .commit db).2.tables = db.tables := by
  rcases E.perform_tables i .commit db with ⟨h, -⟩ | ⟨_, _, _, hc, -⟩ | ⟨tx, -, htx, hok, -, -⟩
  · exact h
  · cases hc
  · rw [E.perform_commit htx, hok] at h
    cases h

end Library
