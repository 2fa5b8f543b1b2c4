import ActiveGraphSurreal.Library.CallTree

/-!
# A database with snapshot transactions

Tables are written record by record. A transaction reads the tables as they were when it
began, with its own writes over them, and its commit fails if a commit since its beginning
wrote one of its records. A statement outside a transaction takes effect at once.

A part of the tables is guarded by a record when every commit that changes the part writes
the record. What a transaction read of a part is then still current at its commit, if it
writes the guard itself.
-/

namespace Library

/-- `exec` answers a statement on given tables and lists the writes it asks for. -/
structure Engine (T W K ε Q : Type) (Rep : Q → Type) where
  exec : (q : Q) → T → Except ε (Rep q × List W)
  apply : W → T → T
  target : W → K
  conflict : ε
  noTransaction : ε

structure Tx (T W : Type) where
  snapshot : T
  start : Nat
  writes : List W

/-- `log` lists the records written by each commit so far. -/
structure Db (ι T W K : Type) where
  tables : T
  log : List (List K)
  tx : ι → Option (Tx T W)

inductive DbCall (Q : Type) where
  | begin
  | commit
  | cancel
  | query (q : Q)
  | txQuery (q : Q)

abbrev DbAnswer (ε : Type) {Q : Type} (Rep : Q → Type) : DbCall Q → Type
  | .query q => Except ε (Rep q)
  | .txQuery q => Except ε (Rep q)
  | _ => Except ε Unit

/-- The faults of a connection: a call that is lost on its way has no effect, and a call
whose answer is lost has one. Both raise one of `errors`. -/
structure Faults (ε : Type) where
  lostCall : Prop
  lostAnswer : Prop
  errors : ε → Prop

variable {ι T W K ε Q : Type} {Rep : Q → Type}

def failed (e : ε) : (c : DbCall Q) → DbAnswer ε Rep c
  | .query _ | .txQuery _ | .begin | .commit | .cancel => .error e

namespace Engine

variable (E : Engine T W K ε Q Rep)

def applyAll (ws : List W) (t : T) : T := ws.foldl (fun t w => E.apply w t) t

@[simp] lemma applyAll_nil (t : T) : E.applyAll [] t = t := rfl

lemma applyAll_append (ws ws' : List W) (t : T) :
    E.applyAll (ws ++ ws') t = E.applyAll ws' (E.applyAll ws t) := List.foldl_append

/-- What the statements of a transaction see. -/
def view (tx : Tx T W) : T := E.applyAll tx.writes tx.snapshot

def conflicts [DecidableEq K] (db : Db ι T W K) (tx : Tx T W) : Bool :=
  (db.log.drop tx.start).any fun ks => tx.writes.any fun w => E.target w ∈ ks

/-- A conflict needs a commit since the transaction began. -/
lemma start_lt_of_conflicts [DecidableEq K] {db : Db ι T W K} {tx : Tx T W}
    (h : E.conflicts db tx = true) : tx.start < db.log.length := by
  unfold conflicts at h
  by_contra hle
  rw [List.drop_eq_nil_of_le (Nat.le_of_not_lt hle)] at h
  cases h

/-- A statement that writes nothing leaves no commit. -/
def commit (ws : List W) (db : Db ι T W K) : Db ι T W K :=
  match ws with
  | [] => db
  | _ :: _ => { db with
      tables := E.applyAll ws db.tables
      log := db.log ++ [ws.map E.target] }

variable [DecidableEq ι] [DecidableEq K]

/-- The tables, the commits and the transactions after a call that is carried out. -/
def perform (i : ι) : (c : DbCall Q) → Db ι T W K → DbAnswer ε Rep c × Db ι T W K
  | .begin, db => (.ok (), { db with
      tx := Function.update db.tx i (some ⟨db.tables, db.log.length, []⟩) })
  | .cancel, db => (.ok (), { db with tx := Function.update db.tx i none })
  | .commit, db =>
    match db.tx i with
    | none => (.error E.noTransaction, db)
    | some tx =>
      let db' := { db with tx := Function.update db.tx i none }
      if E.conflicts db tx then (.error E.conflict, db') else (.ok (), E.commit tx.writes db')
  | .query q, db =>
    match E.exec q db.tables with
    | .error e => (.error e, db)
    | .ok (r, ws) => (.ok r, E.commit ws db)
  | .txQuery q, db =>
    match db.tx i with
    | none => (.error E.noTransaction, db)
    | some tx =>
      match E.exec q (E.view tx) with
      | .error e => (.error e, db)
      | .ok (r, ws) => (.ok r, { db with
          tx := Function.update db.tx i (some { tx with writes := tx.writes ++ ws }) })

lemma perform_txQuery_error {i : ι} {q : Q} {db : Db ι T W K} {tx : Tx T W} {e : ε}
    (htx : db.tx i = some tx) (hexec : E.exec q (E.view tx) = .error e) :
    E.perform i (.txQuery q) db = (.error e, db) := by
  simp [perform, htx, hexec]

lemma perform_txQuery_ok {i : ι} {q : Q} {db : Db ι T W K} {tx : Tx T W} {r : Rep q}
    {ws : List W} (htx : db.tx i = some tx) (hexec : E.exec q (E.view tx) = .ok (r, ws)) :
    E.perform i (.txQuery q) db = (.ok r, { db with
      tx := Function.update db.tx i (some { tx with writes := tx.writes ++ ws }) }) := by
  simp [perform, htx, hexec]

lemma perform_commit {i : ι} {db : Db ι T W K} {tx : Tx T W} (htx : db.tx i = some tx) :
    E.perform i .commit db =
      (if E.conflicts db tx then .error E.conflict else .ok (),
        if E.conflicts db tx then { db with tx := Function.update db.tx i none }
        else E.commit tx.writes { db with tx := Function.update db.tx i none }) := by
  by_cases hc : E.conflicts db tx = true
  · simp [perform, htx, hc]
  · simp [perform, htx, hc]

def serve (φ : Faults ε) (i : ι) : Server (DbCall Q) (DbAnswer ε Rep) (Db ι T W K) :=
  fun c db r db' => (r, db') = E.perform i c db ∨
    ∃ e, φ.errors e ∧ r = failed e c ∧
      (φ.lostCall ∧ db' = db ∨ φ.lostAnswer ∧ db' = (E.perform i c db).2)

omit [DecidableEq ι] [DecidableEq K] in
lemma commit_tx (ws : List W) (db : Db ι T W K) : (E.commit ws db).tx = db.tx := by
  cases ws with
  | nil => rfl
  | cons w ws => rfl

/-- The two things a call can do to the tables. -/
def Commits (ws : List W) (db db' : Db ι T W K) : Prop :=
  db'.tables = E.applyAll ws db.tables ∧ db'.log = db.log ++ [ws.map E.target]

omit [DecidableEq ι] [DecidableEq K] in
lemma commit_cases (ws : List W) (db : Db ι T W K) :
    (ws = [] ∧ E.commit ws db = db) ∨ (ws ≠ [] ∧ E.Commits ws db (E.commit ws db)) := by
  cases ws with
  | nil => exact .inl ⟨rfl, rfl⟩
  | cons w ws => exact .inr ⟨by simp, rfl, rfl⟩

/-- Everything a call can do to the tables and the commits. -/
theorem perform_tables (i : ι) (c : DbCall Q) (db : Db ι T W K) :
    ((E.perform i c db).2.tables = db.tables ∧ (E.perform i c db).2.log = db.log) ∨
    (∃ q r ws, c = .query q ∧ E.exec q db.tables = .ok (r, ws) ∧ ws ≠ [] ∧
      E.Commits ws db (E.perform i c db).2) ∨
    (∃ tx, c = .commit ∧ db.tx i = some tx ∧ E.conflicts db tx = false ∧ tx.writes ≠ [] ∧
      E.Commits tx.writes db (E.perform i c db).2) := by
  cases c with
  | begin => exact .inl ⟨rfl, rfl⟩
  | cancel => exact .inl ⟨rfl, rfl⟩
  | commit =>
    cases htx : db.tx i with
    | none => simp [perform, htx]
    | some tx =>
      by_cases hc : E.conflicts db tx = true
      · simp [perform, htx, hc]
      · simp only [perform, htx, hc]
        rcases E.commit_cases tx.writes { db with tx := Function.update db.tx i none } with
          ⟨hnil, heq⟩ | ⟨hne, hcom⟩
        · left
          simp [heq]
        · right; right
          exact ⟨tx, trivial, rfl, by simpa using hc, hne, hcom⟩
  | query q =>
    cases hq : E.exec q db.tables with
    | error e => simp [perform, hq]
    | ok p =>
      obtain ⟨r, ws⟩ := p
      simp only [perform, hq]
      rcases E.commit_cases ws db with ⟨hnil, heq⟩ | ⟨hne, hcom⟩
      · left
        simp [heq]
      · right; left
        exact ⟨q, r, ws, rfl, hq, hne, hcom⟩
  | txQuery q =>
    left
    cases htx : db.tx i with
    | none => simp [perform, htx]
    | some tx =>
      cases hq : E.exec q (E.view tx) with
      | error e => simp [perform, htx, hq]
      | ok p => simp [perform, htx, hq]

/-- Everything a call can do to the transactions. -/
theorem perform_tx (i : ι) (c : DbCall Q) (db : Db ι T W K) :
    (∀ j, j ≠ i → (E.perform i c db).2.tx j = db.tx j) ∧
    ∀ tx', (E.perform i c db).2.tx i = some tx' →
      (∃ tx, db.tx i = some tx ∧ tx'.snapshot = tx.snapshot ∧ tx'.start = tx.start) ∨
      (c = .begin ∧ tx' = ⟨db.tables, db.log.length, []⟩) := by
  cases c with
  | begin =>
    refine ⟨fun j hj => by simp [perform, hj], fun tx' h => .inr ⟨rfl, ?_⟩⟩
    simpa [perform, eq_comm] using h
  | cancel => exact ⟨fun j hj => by simp [perform, hj], by simp [perform]⟩
  | commit =>
    cases htx : db.tx i with
    | none => exact ⟨fun j _ => by simp [perform, htx], by simp [perform, htx]⟩
    | some tx =>
      refine ⟨fun j hj => ?_, fun tx' h => ?_⟩
      · by_cases hc : E.conflicts db tx = true <;> simp [perform, htx, hc, commit_tx, hj]
      · by_cases hc : E.conflicts db tx = true <;> simp [perform, htx, hc, commit_tx] at h
  | query q =>
    cases hq : E.exec q db.tables with
    | error e =>
      simp only [perform, hq]
      exact ⟨fun _ _ => trivial, fun tx' h => .inl ⟨tx', h, rfl, rfl⟩⟩
    | ok p =>
      simp only [perform, hq, commit_tx]
      exact ⟨fun _ _ => trivial, fun tx' h => .inl ⟨tx', h, rfl, rfl⟩⟩
  | txQuery q =>
    cases htx : db.tx i with
    | none => simp [perform, htx]
    | some tx =>
      cases hq : E.exec q (E.view tx) with
      | error e => simp [perform, htx, hq]
      | ok p =>
        refine ⟨fun j hj => by simp [perform, htx, hq, hj], fun tx' h => .inl ⟨tx, rfl, ?_⟩⟩
        obtain rfl : _ = tx' := by simpa [perform, htx, hq] using h
        exact ⟨rfl, rfl⟩

/-! ### Guarded parts -/

/-- What a transaction read of a part is current while nobody commits to the guard. -/
def Fresh {β : Type} (part : T → β) (k : K) (db : Db ι T W K) (tx : Tx T W) : Prop :=
  (∀ ks ∈ db.log.drop tx.start, k ∉ ks) → part tx.snapshot = part db.tables

omit [DecidableEq ι] [DecidableEq K] in
lemma fresh_begin {β : Type} (part : T → β) (k : K) (db : Db ι T W K) :
    Fresh part k db ⟨db.tables, db.log.length, []⟩ := fun _ => rfl

omit [DecidableEq ι] [DecidableEq K] in
lemma Fresh.commits {β : Type} {part : T → β} {k : K} {db db' : Db ι T W K} {tx : Tx T W}
    {ws : List W} (h : Fresh part k db tx) (hs : tx.start ≤ db.log.length)
    (hc : E.Commits ws db db')
    (hpart : k ∉ ws.map E.target → part db'.tables = part db.tables) :
    Fresh part k db' tx := by
  intro hk
  rw [hc.2, List.drop_append_of_le_length hs] at hk
  have hold : ∀ ks ∈ db.log.drop tx.start, k ∉ ks := fun ks hks =>
    hk ks (List.mem_append_left _ hks)
  have hnew : k ∉ ws.map E.target := hk _ (by simp)
  rw [h hold, hpart hnew]

omit [DecidableEq ι] in
/-- A transaction that may commit has read the current value of what it writes. -/
theorem Fresh.current {β : Type} {part : T → β} {k : K} {db : Db ι T W K} {tx : Tx T W}
    (h : Fresh part k db tx) (hc : E.conflicts db tx = false) (hk : k ∈ tx.writes.map E.target) :
    part tx.snapshot = part db.tables := by
  apply h
  intro ks hks hmem
  obtain ⟨w, hw, rfl⟩ := List.mem_map.mp hk
  simp only [conflicts, List.any_eq_false, List.any_eq_true, not_exists, not_and] at hc
  exact hc ks hks w hw (by simpa using hmem)

end Engine

/-- A family of guarded parts, an invariant of the tables and a relation that their history
respects. -/
structure Guarded (T K γ β : Type) where
  part : γ → T → β
  guard : γ → K
  Good : T → Prop
  Past : T → T → Prop
  past_refl : ∀ t, Past t t
  past_trans : ∀ a b c, Past a b → Past b c → Past a c

namespace Guarded

variable {γ β : Type} (P : Guarded T K γ β) (E : Engine T W K ε Q Rep)

/-- The writes keep the invariant and touch no part without writing its guard. -/
def Lawful (ws : List W) (t : T) : Prop :=
  P.Good (E.applyAll ws t) ∧ P.Past t (E.applyAll ws t) ∧
    ∀ g, P.guard g ∉ ws.map E.target → P.part g (E.applyAll ws t) = P.part g t

def TxOk (db : Db ι T W K) (tx : Tx T W) : Prop :=
  P.Good tx.snapshot ∧ P.Past tx.snapshot db.tables ∧ tx.start ≤ db.log.length ∧
    ∀ g, Engine.Fresh (P.part g) (P.guard g) db tx

def Consistent (db : Db ι T W K) : Prop :=
  P.Good db.tables ∧ ∀ i tx, db.tx i = some tx → P.TxOk db tx

def Rely (i : ι) (db db' : Db ι T W K) : Prop :=
  P.Past db.tables db'.tables ∧ (P.Consistent db → P.Consistent db') ∧ db'.tx i = db.tx i

lemma rely_refl (i : ι) (db : Db ι T W K) : P.Rely i db db :=
  ⟨P.past_refl _, id, rfl⟩

lemma rely_trans (i : ι) (a b c : Db ι T W K) (h : P.Rely i a b) (h' : P.Rely i b c) :
    P.Rely i a c :=
  ⟨P.past_trans _ _ _ h.1 h'.1, fun hc => h'.2.1 (h.2.1 hc), h'.2.2.trans h.2.2⟩

/-- A step of the tables: none, or a commit of lawful writes. -/
def Lawfully (db db' : Db ι T W K) (allowed : List W → T → Prop) : Prop :=
  (db'.tables = db.tables ∧ db'.log = db.log) ∨
    ∃ ws, E.Commits ws db db' ∧ P.Lawful E ws db.tables ∧ allowed ws db.tables

/-- A step of lawful writes keeps the invariant and what the transactions have read. -/
theorem Lawfully.keeps {db db' : Db ι T W K} {allowed : List W → T → Prop}
    (h : P.Lawfully E db db' allowed) : P.Past db.tables db'.tables ∧
      (P.Good db.tables → P.Good db'.tables) ∧ ∀ tx, P.TxOk db tx → P.TxOk db' tx := by
  unfold TxOk
  rcases h with ⟨ht, hlog⟩ | ⟨ws, hcommits, ⟨hgood, hpast, hpart⟩, -⟩
  · refine ⟨ht ▸ P.past_refl _, fun hg => ht ▸ hg, fun tx htx => ?_⟩
    unfold Engine.Fresh at htx ⊢
    rw [ht, hlog]
    exact htx
  · rw [hcommits.1]
    refine ⟨hpast, fun _ => hgood, fun tx htx => ?_⟩
    obtain ⟨hsnapshot, hsince, hstart, hfresh⟩ := htx
    refine ⟨hsnapshot, P.past_trans _ _ _ hsince hpast, ?_, fun g => ?_⟩
    · rw [hcommits.2, List.length_append]
      exact Nat.le_add_right_of_le hstart
    · refine (hfresh g).commits E hstart hcommits ?_
      rw [hcommits.1]
      exact hpart g

variable [DecidableEq ι] [DecidableEq K]

/-- The calls of a client that commits only lawful writes keep the tables consistent and
are what the other clients rely on. -/
theorem served {φ : Faults ε} {i : ι} {c : DbCall Q} {db db' : Db ι T W K}
    {r : DbAnswer ε Rep c} {allowed : List W → T → Prop} (hs : E.serve φ i c db r db')
    (hl : P.Lawfully E db db' allowed) (hc : P.Consistent db) :
    P.Consistent db' ∧ ∀ j, j ≠ i → P.Rely j db db' := by
  have htx : (∀ j, j ≠ i → db'.tx j = db.tx j) ∧ ∀ tx', db'.tx i = some tx' →
      (∃ tx, db.tx i = some tx ∧ tx'.snapshot = tx.snapshot ∧ tx'.start = tx.start) ∨
      (db'.tables = db.tables ∧ tx' = ⟨db.tables, db.log.length, []⟩) := by
    have hperform : (∀ j, j ≠ i → (E.perform i c db).2.tx j = db.tx j) ∧
        ∀ tx', (E.perform i c db).2.tx i = some tx' →
        (∃ tx, db.tx i = some tx ∧ tx'.snapshot = tx.snapshot ∧ tx'.start = tx.start) ∨
        ((E.perform i c db).2.tables = db.tables ∧ tx' = ⟨db.tables, db.log.length, []⟩) := by
      obtain ⟨hother, hown⟩ := E.perform_tx i c db
      refine ⟨hother, fun tx' h => ?_⟩
      rcases hown tx' h with h | ⟨rfl, htx'⟩
      · exact .inl h
      · exact .inr ⟨rfl, htx'⟩
    rcases hs with h | ⟨e, _, _, ⟨_, rfl⟩ | ⟨_, rfl⟩⟩
    · rw [← h] at hperform
      exact hperform
    · exact ⟨fun j _ => rfl, fun tx' h => .inl ⟨tx', h, rfl, rfl⟩⟩
    · exact hperform
  have hgood : P.Good db'.tables ∧ P.Past db.tables db'.tables ∧
      db.log.length ≤ db'.log.length ∧
      ∀ tx : Tx T W, tx.start ≤ db.log.length → ∀ g,
        Engine.Fresh (P.part g) (P.guard g) db tx →
        Engine.Fresh (P.part g) (P.guard g) db' tx := by
    rcases hl with ⟨ht, hlog⟩ | ⟨ws, hcom, ⟨hg, hp, hpart⟩, _⟩
    · rw [ht, hlog]
      refine ⟨hc.1, P.past_refl _, Nat.le_refl _, fun tx _ g h hk => ?_⟩
      rw [ht]
      exact h (hlog ▸ hk)
    · rw [hcom.1]
      refine ⟨hg, hp, by simp [hcom.2], fun tx hs g h => ?_⟩
      apply h.commits E hs hcom
      rw [hcom.1]
      exact hpart g
  obtain ⟨hgood, hpast, hlen, hfresh⟩ := hgood
  have hkept : ∀ tx, P.TxOk db tx → P.TxOk db' tx := by
    rintro tx ⟨hg, hp, hs, hf⟩
    exact ⟨hg, P.past_trans _ _ _ hp hpast, Nat.le_trans hs hlen, fun g => hfresh tx hs g (hf g)⟩
  have hcons : P.Consistent db' := by
    refine ⟨hgood, fun j tx' hj => ?_⟩
    by_cases hji : j = i
    · subst hji
      rcases htx.2 tx' hj with ⟨tx, htx, hsnap, hstart⟩ | ⟨ht, rfl⟩
      · obtain ⟨hg, hp, hs, hf⟩ := hkept tx (hc.2 j tx htx)
        unfold TxOk Engine.Fresh
        rw [hsnap, hstart]
        exact ⟨hg, hp, hs, hf⟩
      · refine hkept _ ⟨hc.1, P.past_refl _, Nat.le_refl _, fun g => Engine.fresh_begin _ _ _⟩
    · rw [htx.1 j hji] at hj
      exact hkept tx' (hc.2 j tx' hj)
  exact ⟨hcons, fun j hj => ⟨hpast, fun _ => hcons, htx.1 j hj⟩⟩

omit [DecidableEq ι] in
/-- A commit that goes through writes onto the values it has read. -/
theorem TxOk.current {db : Db ι T W K} {tx : Tx T W} (h : P.TxOk db tx)
    (hc : E.conflicts db tx = false) {g : γ} (hg : P.guard g ∈ tx.writes.map E.target) :
    P.part g tx.snapshot = P.part g db.tables := (h.2.2.2 g).current E hc hg

end Guarded

end Library
