import ActiveGraphSurreal.Library.Clients
import ActiveGraphSurreal.Library.SnapshotDb

/-!
# Confined programs

A confined program makes statements of a kind only and works in no transaction that it has
not begun. What its statements keep is kept by every run, and on databases with the same
part it does the same, when its statements see that part only.
-/

namespace Library

variable {ι T W K ε Q α β : Type} {Rep : Q → Type} {P : Q → Prop} {R : Bool → α → Prop} {b : Bool}

/-- Every statement is one of `P`, and the program works in a transaction only after it has
begun one itself, which `begun` says. It ends in `R`, whatever the answers are. -/
def Confined (P : Q → Prop) (R : Bool → α → Prop) (begun : Bool) :
    Prog (DbCall Q) (DbAnswer ε Rep) α → Prop
  | .done a => R begun a
  | .call .begin k => Confined P R true (k (.ok ())) ∧ ∀ e, Confined P R begun (k (.error e))
  | .call .commit k => begun = true ∧ ∀ r, Confined P R begun (k r)
  | .call .cancel k => ∀ r, Confined P R begun (k r)
  | .call (.query q) k => P q ∧ ∀ r, Confined P R begun (k r)
  | .call (.txQuery q) k => (begun = true ∧ P q) ∧ ∀ r, Confined P R begun (k r)

lemma confined_bind_iff {R : Bool → β → Prop} {p : Prog (DbCall Q) (DbAnswer ε Rep) α}
    {f : α → Prog (DbCall Q) (DbAnswer ε Rep) β} :
    Confined P R b (p.bind f) ↔ Confined P (fun b a => Confined P R b (f a)) b p := by
  induction p generalizing b with
  | done a => exact Iff.rfl
  | call c k ih =>
    cases c with
    | begin => exact and_congr (ih _) (forall_congr' fun e => ih _)
    | commit => exact and_congr_right fun _ => forall_congr' fun r => ih r
    | cancel => exact forall_congr' fun r => ih r
    | query q => exact and_congr_right fun _ => forall_congr' fun r => ih r
    | txQuery q => exact and_congr_right fun _ => forall_congr' fun r => ih r

lemma Confined.mono {P' : Q → Prop} {R' : Bool → α → Prop} (hP : ∀ q, P q → P' q)
    (hR : ∀ b a, R b a → R' b a) {p : Prog (DbCall Q) (DbAnswer ε Rep) α}
    (hp : Confined P R b p) : Confined P' R' b p := by
  induction p generalizing b with
  | done a => exact hR b a hp
  | call c k ih =>
    cases c with
    | begin => exact ⟨ih _ hp.1, fun e => ih _ (hp.2 e)⟩
    | commit => exact ⟨hp.1, fun r => ih r (hp.2 r)⟩
    | cancel => exact fun r => ih r (hp r)
    | query q => exact ⟨hP q hp.1, fun r => ih r (hp.2 r)⟩
    | txQuery q => exact ⟨⟨hp.1.1, hP q hp.1.2⟩, fun r => ih r (hp.2 r)⟩

/-- What a program has begun stays begun. -/
lemma Confined.begun {p : Prog (DbCall Q) (DbAnswer ε Rep) α} (hp : Confined P R b p) :
    Confined P (fun b' a => (b = true → b' = true) ∧ R b' a) b p := by
  induction p generalizing b with
  | done a => exact ⟨id, hp⟩
  | call c k ih =>
    cases c with
    | begin =>
      exact ⟨(ih _ hp.1).mono (fun _ => id) fun b' a h => ⟨fun _ => h.1 rfl, h.2⟩,
        fun e => ih _ (hp.2 e)⟩
    | commit => exact ⟨hp.1, fun r => ih r (hp.2 r)⟩
    | cancel => exact fun r => ih r (hp r)
    | query q => exact ⟨hp.1, fun r => ih r (hp.2 r)⟩
    | txQuery q => exact ⟨hp.1, fun r => ih r (hp.2 r)⟩

/-- What the statements of a program keep: an invariant of the tables, by writes of a kind. -/
structure Kept (E : Engine T W K ε Q Rep) (P : Q → Prop) (I : T → Prop) (V : W → Prop) :
    Prop where
  exec : ∀ q t r ws, P q → I t → E.exec q t = .ok (r, ws) → ∀ w ∈ ws, V w
  apply : ∀ t w, I t → V w → I (E.apply w t)

/-- The tables are as before, or changed by writes of the kind. -/
def Moves (E : Engine T W K ε Q Rep) (V : W → Prop) (db db' : Db ι T W K) : Prop :=
  (db'.tables = db.tables ∧ db'.log = db.log) ∨
    ∃ ws, (∀ w ∈ ws, V w) ∧ E.Commits ws db db'

/-- The transaction of a client has seen tables with the invariant and holds writes of the
kind. -/
def OwnTx (I : T → Prop) (V : W → Prop) (i : ι) (db : Db ι T W K) : Prop :=
  ∀ tx, db.tx i = some tx → I tx.snapshot ∧ ∀ w ∈ tx.writes, V w

variable {E : Engine T W K ε Q Rep} {I : T → Prop} {V : W → Prop}

lemma Kept.applyAll (hk : Kept E P I V) {ws : List W} {t : T} (ht : I t) (hws : ∀ w ∈ ws, V w) :
    I (E.applyAll ws t) := by
  induction ws generalizing t with
  | nil => exact ht
  | cons w ws ih =>
    have hw : V w := hws w (by simp)
    exact ih (hk.apply t w ht hw) fun w' h' => hws w' (by simp [h'])

lemma Moves.keeps (hk : Kept E P I V) {db db' : Db ι T W K} (h : Moves E V db db')
    (hI : I db.tables) : I db'.tables := by
  rcases h with ⟨h, -⟩ | ⟨ws, hws, h, -⟩
  · rw [h]
    exact hI
  · rw [h]
    exact hk.applyAll hI hws

variable [DecidableEq ι] [DecidableEq K]

/-- One call of a confined program. -/
theorem Confined.step (hk : Kept E P I V) {φ : Faults ε} {i : ι} {c : DbCall Q}
    {k : DbAnswer ε Rep c → Prog (DbCall Q) (DbAnswer ε Rep) α} {db db' : Db ι T W K}
    {r : DbAnswer ε Rep c} (hp : Confined P R b (.call c k)) (hs : E.serve φ i c db r db')
    (hI : I db.tables) (hown : b = true → OwnTx I V i db) :
    ∃ b', Confined P R b' (k r) ∧ (b' = true → OwnTx I V i db') ∧ Moves E V db db' := by
  have hsame : Moves E V db db := .inl ⟨rfl, rfl⟩
  have hcommit : ∀ {ws : List W} {db₀ : Db ι T W K}, db₀.tables = db.tables → db₀.log = db.log →
      (∀ w ∈ ws, V w) → Moves E V db (E.commit ws db₀) := by
    intro ws db₀ ht hl hws
    rcases E.commit_cases ws db₀ with ⟨-, heq⟩ | ⟨-, hcom⟩
    · rw [heq]
      exact .inl ⟨ht, hl⟩
    · refine .inr ⟨ws, hws, ?_⟩
      unfold Engine.Commits at hcom ⊢
      rw [← ht, ← hl]
      exact hcom
  have hnone : ∀ {db' : Db ι T W K}, db'.tx i = none → OwnTx I V i db' := by
    intro db' hdb' tx htx
    rw [hdb'] at htx
    cases htx
  -- what the call does when it is carried out
  have hnew : OwnTx I V i (E.perform i .begin db).2 := by
    intro tx htx
    have heq : (⟨db.tables, db.log.length, []⟩ : Tx T W) = tx := by
      simpa [Engine.perform] using htx
    subst heq
    exact ⟨hI, by simp⟩
  have hperform : ∀ db', db' = (E.perform i c db).2 →
      (b = true → OwnTx I V i db') ∧ Moves E V db db' := by
    rintro db' rfl
    cases c with
    | begin => exact ⟨fun _ => hnew, .inl ⟨rfl, rfl⟩⟩
    | cancel => exact ⟨fun _ => hnone (by simp [Engine.perform]), .inl ⟨rfl, rfl⟩⟩
    | commit =>
      cases htx : db.tx i with
      | none =>
        simp only [Engine.perform, htx]
        exact ⟨hown, hsame⟩
      | some tx =>
        by_cases hc : E.conflicts db tx = true
        · simp only [Engine.perform, htx, hc, if_true]
          exact ⟨fun _ => hnone (by simp), .inl ⟨rfl, rfl⟩⟩
        · simp only [Engine.perform, htx, hc]
          refine ⟨fun _ => hnone ?_, hcommit rfl rfl (hown hp.1 tx htx).2⟩
          simp [Engine.commit_tx]
    | query q =>
      cases hq : E.exec q db.tables with
      | error e =>
        simp only [Engine.perform, hq]
        exact ⟨hown, hsame⟩
      | ok x =>
        obtain ⟨r', ws⟩ := x
        simp only [Engine.perform, hq]
        refine ⟨fun hb tx htx => ?_, hcommit rfl rfl (hk.exec q _ r' ws hp.1 hI hq)⟩
        rw [Engine.commit_tx] at htx
        exact hown hb tx htx
    | txQuery q =>
      cases htx : db.tx i with
      | none =>
        simp only [Engine.perform, htx]
        exact ⟨hown, hsame⟩
      | some tx =>
        cases hq : E.exec q (E.view tx) with
        | error e =>
          simp only [Engine.perform, htx, hq]
          exact ⟨hown, hsame⟩
        | ok x =>
          obtain ⟨r', ws⟩ := x
          simp only [Engine.perform, htx, hq]
          refine ⟨fun hb tx' htx' => ?_, .inl ⟨rfl, rfl⟩⟩
          obtain ⟨hsnap, hwrites⟩ := hown hb tx htx
          have hview : I (E.view tx) := hk.applyAll hsnap hwrites
          have heq : ({ tx with writes := tx.writes ++ ws } : Tx T W) = tx' := by simpa using htx'
          subst heq
          refine ⟨hsnap, fun w hw => ?_⟩
          rcases List.mem_append.mp hw with hw | hw
          · exact hwrites w hw
          · exact hk.exec q _ r' ws hp.1.2 hview hq w hw
  have heffect : (b = true → OwnTx I V i db') ∧ Moves E V db db' := by
    rcases hs with h | ⟨e, -, -, ⟨-, rfl⟩ | ⟨-, h⟩⟩
    · exact hperform db' (congrArg Prod.snd h)
    · exact ⟨hown, hsame⟩
    · exact hperform db' h
  obtain ⟨hkeep, hmoves⟩ := heffect
  cases c with
  | begin =>
    cases r with
    | error e => exact ⟨b, hp.2 e, hkeep, hmoves⟩
    | ok u =>
      refine ⟨true, hp.1, fun _ => ?_, hmoves⟩
      rcases hs with h | ⟨e, -, he, -⟩
      · have hdb : db' = (E.perform i .begin db).2 := congrArg Prod.snd h
        rw [hdb]
        exact hnew
      · cases he
  | commit => exact ⟨b, hp.2 r, hkeep, hmoves⟩
  | cancel => exact ⟨b, hp r, hkeep, hmoves⟩
  | query q => exact ⟨b, hp.2 r, hkeep, hmoves⟩
  | txQuery q => exact ⟨b, hp.2 r, hkeep, hmoves⟩

/-- A confined program that runs alone keeps the invariant by writes of the kind, one call
after the other, and ends as it promises. -/
theorem Confined.exec (hk : Kept E P I V) {φ : Faults ε} {i : ι}
    {p : Prog (DbCall Q) (DbAnswer ε Rep) α} {db db' : Db ι T W K} {a : α}
    {h : List (CallRec (DbCall Q) (DbAnswer ε Rep) (Db ι T W K))} (hp : Confined P R b p)
    (he : p.Exec (E.serve φ i) db h a db') (hI : I db.tables)
    (hown : b = true → OwnTx I V i db) :
    I db'.tables ∧ (∃ b', R b' a) ∧ ∀ rec ∈ h, I rec.before.tables ∧
      Moves E V rec.before rec.after := by
  induction he generalizing b with
  | done a db => exact ⟨hI, ⟨b, hp⟩, by simp⟩
  | call hs hrest ih =>
    obtain ⟨b', hp', hown', hmoves⟩ := hp.step hk hs hI hown
    obtain ⟨hI', hR, hall⟩ := ih hp' (hmoves.keeps hk hI) hown'
    refine ⟨hI', hR, ?_⟩
    intro rec hrec
    rcases List.mem_cons.mp hrec with rfl | hrec
    · exact ⟨hI, hmoves⟩
    · exact hall rec hrec

/-- A confined program among others that keep the invariant and leave its transaction alone
does what its own writes and the steps of the others do. -/
theorem Confined.always_amid (hk : Kept E P I V) {φ : Faults ε} {i : ι} {others M : Db ι T W K → Db ι T W K → Prop}
    (hothers : ∀ db db', others db db' → (I db.tables → I db'.tables) ∧ db'.tx i = db.tx i)
    (hrefl : ∀ db, M db db) (htrans : ∀ a b c, M a b → M b c → M a c)
    (hstep : ∀ db db', others db db' → M db db')
    (hmoves : ∀ db db', I db.tables → Moves E V db db' → M db db')
    {p : Prog (DbCall Q) (DbAnswer ε Rep) α} {db : Db ι T W K} (hp : Confined P R b p)
    (hI : I db.tables) (hown : b = true → OwnTx I V i db) :
    p.Always (amid others (E.serve φ i))
      (fun a db' => I db'.tables ∧ M db db' ∧ ∃ b', R b' a ∧ (b' = true → OwnTx I V i db')) db := by
  induction p generalizing db b with
  | done a => exact ⟨hI, hrefl db, b, hp, hown⟩
  | call c k ih =>
    rintro r db' ⟨db₁, h₁, hs⟩
    obtain ⟨hkeep, htx⟩ := hothers db db₁ h₁
    have hown₁ : b = true → OwnTx I V i db₁ := by
      intro hb tx
      rw [htx]
      exact hown hb tx
    obtain ⟨b', hp', hown', hm⟩ := hp.step hk hs (hkeep hI) hown₁
    refine (ih r hp' (hm.keeps hk (hkeep hI)) hown').mono ?_
    rintro a db'' ⟨hI', hrest, hend⟩
    have hcall := htrans _ _ _ (hstep db db₁ h₁) (hmoves db₁ db' (hkeep hI) hm)
    exact ⟨hI', htrans _ _ _ hcall hrest, hend⟩

/-! ### Programs that see a part of the tables -/

variable {γ : Type} {part : T → γ} {own : K → Prop}

/-- The statements depend on a part of the tables only, and so do the writes to it, which
write own records. -/
structure Local (E : Engine T W K ε Q Rep) (P : Q → Prop) (I : T → Prop) (V : W → Prop)
    (own : K → Prop) (part : T → γ) : Prop extends Kept E P I V where
  agree : ∀ q t t', P q → I t → I t' → part t = part t' → E.exec q t = E.exec q t'
  congr : ∀ t t' w, V w → part t = part t' → part (E.apply w t) = part (E.apply w t')
  owned : ∀ w, V w → own (E.target w)

/-- The same own records have been written by the commits of two logs. -/
def SameTouched (own : K → Prop) (log log' : List (List K)) : Prop :=
  ∀ k, own k → ((∃ ks ∈ log, k ∈ ks) ↔ ∃ ks ∈ log', k ∈ ks)

/-- Two transactions with the same writes over snapshots with the same part, and the same
own records written since their beginnings. -/
structure TxAlike (I : T → Prop) (V : W → Prop) (own : K → Prop) (part : T → γ)
    (db db' : Db ι T W K) (tx tx' : Tx T W) : Prop where
  inv : I tx.snapshot
  inv' : I tx'.snapshot
  same : part tx.snapshot = part tx'.snapshot
  writes : tx.writes = tx'.writes
  kind : ∀ w ∈ tx.writes, V w
  start : tx.start ≤ db.log.length
  start' : tx'.start ≤ db'.log.length
  log : SameTouched own (db.log.drop tx.start) (db'.log.drop tx'.start)

/-- Databases that a client cannot tell apart by its part of the tables. -/
structure Alike (I : T → Prop) (V : W → Prop) (own : K → Prop) (part : T → γ) (i : ι)
    (begun : Bool) (db db' : Db ι T W K) : Prop where
  inv : I db.tables
  inv' : I db'.tables
  same : part db.tables = part db'.tables
  tx : begun = true → (db.tx i = none ∧ db'.tx i = none) ∨
    ∃ tx tx', db.tx i = some tx ∧ db'.tx i = some tx' ∧ TxAlike I V own part db db' tx tx'

omit [DecidableEq ι] [DecidableEq K] in
lemma Local.applyAll (hl : Local E P I V own part) {ws : List W} {t t' : T} (hws : ∀ w ∈ ws, V w)
    (h : part t = part t') : part (E.applyAll ws t) = part (E.applyAll ws t') := by
  induction ws generalizing t t' with
  | nil => exact h
  | cons w ws ih =>
    have hw : V w := hws w (by simp)
    exact ih (fun w' h' => hws w' (by simp [h'])) (hl.congr t t' w hw h)

omit [DecidableEq K] in
lemma SameTouched.append {log log' new : List (List K)} (h : SameTouched own log log') :
    SameTouched own (log ++ new) (log' ++ new) := by
  intro k hk
  have hiff := h k hk
  simp only [List.mem_append, or_and_right, exists_or, hiff]

omit [DecidableEq ι] [DecidableEq K] in
lemma Alike.commit (hl : Local E P I V own part) {i : ι} {db db' : Db ι T W K} {ws : List W}
    (h : Alike I V own part i b db db') (hws : ∀ w ∈ ws, V w) :
    Alike I V own part i b (E.commit ws db) (E.commit ws db') := by
  cases ws with
  | nil => exact h
  | cons w ws =>
    refine ⟨hl.toKept.applyAll h.inv hws, hl.toKept.applyAll h.inv' hws,
      Local.applyAll hl hws h.same, ?_⟩
    intro hb
    rcases h.tx hb with hnone | ⟨tx, tx', htx, htx', halike⟩
    · exact .inl hnone
    · refine .inr ⟨tx, tx', htx, htx', { halike with start := ?_, start' := ?_, log := ?_ }⟩
      · exact Nat.le_trans halike.start (by simp [Engine.commit])
      · exact Nat.le_trans halike.start' (by simp [Engine.commit])
      · simp only [Engine.commit]
        rw [List.drop_append_of_le_length halike.start, List.drop_append_of_le_length halike.start']
        exact halike.log.append

omit [DecidableEq ι] in
/-- Transactions that are alike conflict alike. -/
lemma TxAlike.conflicts (hl : Local E P I V own part) {db db' : Db ι T W K} {tx tx' : Tx T W}
    (h : TxAlike I V own part db db' tx tx') : E.conflicts db tx = E.conflicts db' tx' := by
  have htouched : ∀ (log : List (List K)), (log.any fun ks => tx.writes.any fun w =>
      E.target w ∈ ks) = true ↔ ∃ w ∈ tx.writes, ∃ ks ∈ log, E.target w ∈ ks := by
    intro log
    simp only [List.any_eq_true, decide_eq_true_eq]
    constructor
    · rintro ⟨ks, hks, w, hw, hmem⟩
      exact ⟨w, hw, ks, hks, hmem⟩
    · rintro ⟨w, hw, ks, hks, hmem⟩
      exact ⟨ks, hks, w, hw, hmem⟩
  unfold Engine.conflicts
  rw [← h.writes, Bool.eq_iff_iff, htouched, htouched]
  exact exists_congr fun w => and_congr_right fun hw => h.log _ (hl.owned w (h.kind w hw))

/-- One call of a confined program on two databases that are alike for it. -/
theorem Confined.alike (hl : Local E P I V own part) {i : ι} {c : DbCall Q}
    {k : DbAnswer ε Rep c → Prog (DbCall Q) (DbAnswer ε Rep) α} {db db' : Db ι T W K}
    (hp : Confined P R b (.call c k)) (h : Alike I V own part i b db db') :
    (E.perform i c db).1 = (E.perform i c db').1 ∧
    ∃ b', Confined P R b' (k (E.perform i c db).1) ∧
      Alike I V own part i b' (E.perform i c db).2 (E.perform i c db').2 := by
  cases c with
  | begin =>
    refine ⟨rfl, true, hp.1, ⟨h.inv, h.inv', h.same, fun _ => .inr
      ⟨⟨db.tables, db.log.length, []⟩, ⟨db'.tables, db'.log.length, []⟩, ?_, ?_, ?_⟩⟩⟩
    · simp [Engine.perform]
    · simp [Engine.perform]
    · refine ⟨h.inv, h.inv', h.same, rfl, by simp, Nat.le_refl _, Nat.le_refl _, ?_⟩
      simp [Engine.perform, SameTouched]
  | cancel =>
    refine ⟨rfl, b, hp _, ⟨h.inv, h.inv', h.same, fun _ => .inl ?_⟩⟩
    simp [Engine.perform]
  | commit =>
    rcases h.tx hp.1 with ⟨hnone, hnone'⟩ | ⟨tx, tx', htx, htx', halike⟩
    · simp only [Engine.perform, hnone, hnone']
      exact ⟨trivial, b, hp.2 _, h⟩
    · have hclosed : ∀ b, Alike I V own part i b { db with tx := Function.update db.tx i none }
          { db' with tx := Function.update db'.tx i none } :=
        fun b => ⟨h.inv, h.inv', h.same, fun _ => .inl (by simp)⟩
      rw [E.perform_commit htx, E.perform_commit htx', halike.conflicts hl, halike.writes]
      refine ⟨rfl, b, hp.2 _, ?_⟩
      simp only
      split
      · exact hclosed b
      · exact Alike.commit hl (hclosed b) (halike.writes ▸ halike.kind)
  | query q =>
    have hexec := hl.agree q _ _ hp.1 h.inv h.inv' h.same
    cases hq : E.exec q db.tables with
    | error e =>
      simp only [Engine.perform, hq, ← hexec]
      exact ⟨trivial, b, hp.2 _, h⟩
    | ok x =>
      obtain ⟨r, ws⟩ := x
      simp only [Engine.perform, hq, ← hexec]
      exact ⟨trivial, b, hp.2 _, Alike.commit hl h (hl.exec q _ r ws hp.1 h.inv hq)⟩
  | txQuery q =>
    obtain ⟨⟨hb, hq⟩, hrest⟩ := hp
    rcases h.tx hb with ⟨hnone, hnone'⟩ | ⟨tx, tx', htx, htx', halike⟩
    · simp only [Engine.perform, hnone, hnone']
      exact ⟨trivial, b, hrest _, h⟩
    · have hview : I (E.view tx) := hl.toKept.applyAll halike.inv halike.kind
      have hview' : I (E.view tx') := hl.toKept.applyAll halike.inv' (halike.writes ▸ halike.kind)
      have hsame : part (E.view tx) = part (E.view tx') := by
        unfold Engine.view
        rw [← halike.writes]
        exact Local.applyAll hl halike.kind halike.same
      have hexec := hl.agree q _ _ hq hview hview' hsame
      cases hanswer : E.exec q (E.view tx) with
      | error e =>
        rw [E.perform_txQuery_error htx hanswer,
          E.perform_txQuery_error htx' (hexec.symm.trans hanswer)]
        exact ⟨rfl, b, hrest _, h⟩
      | ok x =>
        obtain ⟨r, ws⟩ := x
        rw [E.perform_txQuery_ok htx hanswer,
          E.perform_txQuery_ok htx' (hexec.symm.trans hanswer)]
        refine ⟨rfl, b, hrest _, ⟨h.inv, h.inv', h.same, fun _ => .inr
          ⟨{ tx with writes := tx.writes ++ ws }, { tx' with writes := tx'.writes ++ ws },
            ?_, ?_, ?_⟩⟩⟩
        · simp
        · simp
        · refine { halike with writes := ?_, kind := ?_ }
          · simp only [halike.writes]
          · intro w hw
            rcases List.mem_append.mp hw with hw | hw
            · exact halike.kind w hw
            · exact hl.exec q _ r ws hq hview hanswer w hw

/-- A confined program does the same on databases that are alike for it. -/
theorem Confined.sim (hl : Local E P I V own part) {i : ι} {p : Prog (DbCall Q) (DbAnswer ε Rep) α}
    {db db' : Db ι T W K} (hp : Confined P R b p) (h : Alike I V own part i b db db') :
    (p.run (E.perform i) db).1 = (p.run (E.perform i) db').1 ∧
    ∃ b', R b' (p.run (E.perform i) db).1 ∧
      Alike I V own part i b' (p.run (E.perform i) db).2 (p.run (E.perform i) db').2 := by
  induction p generalizing db db' b with
  | done a => exact ⟨rfl, b, hp, h⟩
  | call c k ih =>
    obtain ⟨hanswer, b', hp', h'⟩ := hp.alike hl h
    unfold Prog.run
    rw [← hanswer]
    exact ih _ hp' h'

/-- The steps of others that keep out of a part: they write no own record of it. -/
structure Apart (I : T → Prop) (own : K → Prop) (part : T → γ) (i : ι) (db db' : Db ι T W K) :
    Prop where
  inv : I db.tables → I db'.tables
  same : part db'.tables = part db.tables
  tx : db'.tx i = db.tx i
  log : ∃ new, db'.log = db.log ++ new ∧ ∀ ks ∈ new, ∀ k ∈ ks, ¬ own k

omit [DecidableEq ι] [DecidableEq K] in
lemma Apart.refl (i : ι) (db : Db ι T W K) : Apart I own part i db db :=
  ⟨id, rfl, rfl, [], by simp, by simp⟩

omit [DecidableEq ι] [DecidableEq K] in
lemma Apart.trans {i : ι} {db₁ db₂ db₃ : Db ι T W K} (h : Apart I own part i db₁ db₂)
    (h' : Apart I own part i db₂ db₃) : Apart I own part i db₁ db₃ := by
  obtain ⟨new, hlog, hnew⟩ := h.log
  obtain ⟨new', hlog', hnew'⟩ := h'.log
  refine ⟨fun hI => h'.inv (h.inv hI), h'.same.trans h.same, h'.tx.trans h.tx, new ++ new', ?_, ?_⟩
  · rw [hlog', hlog, List.append_assoc]
  · intro ks hks
    rcases List.mem_append.mp hks with hks | hks
    · exact hnew ks hks
    · exact hnew' ks hks

omit [DecidableEq ι] [DecidableEq K] in
/-- Others that keep out of the part cannot be noticed. -/
lemma Alike.apart {i : ι} {db db' db₁ : Db ι T W K} (h : Alike I V own part i b db db')
    (h₁ : Apart I own part i db db₁) : Alike I V own part i b db₁ db' := by
  obtain ⟨new, hlog, hnew⟩ := h₁.log
  refine ⟨h₁.inv h.inv, h.inv', h₁.same.trans h.same, fun hb => ?_⟩
  rcases h.tx hb with ⟨hnone, hnone'⟩ | ⟨tx, tx', htx, htx', halike⟩
  · exact .inl ⟨h₁.tx.trans hnone, hnone'⟩
  · refine .inr ⟨tx, tx', h₁.tx.trans htx, htx', { halike with start := ?_, log := ?_ }⟩
    · rw [hlog, List.length_append]
      exact Nat.le_trans halike.start (Nat.le_add_right _ _)
    · intro k hk
      rw [hlog, List.drop_append_of_le_length halike.start, ← halike.log k hk]
      have hother : ¬ ∃ ks ∈ new, k ∈ ks := fun ⟨ks, hks, hmem⟩ => hnew ks hks k hmem hk
      simp only [List.mem_append, or_and_right, exists_or, hother, or_false]

/-- Among others that keep out of its part a confined program does what it does alone. -/
theorem Confined.sim_amid (hl : Local E P I V own part) {φ : Faults ε} (hφ : ¬ φ.lostCall)
    (hφ' : ¬ φ.lostAnswer) {i : ι} {p : Prog (DbCall Q) (DbAnswer ε Rep) α} {db db' db₁ : Db ι T W K}
    {a : α} {h : List (CallRec (DbCall Q) (DbAnswer ε Rep) (Db ι T W K))} (hp : Confined P R b p)
    (halike : Alike I V own part i b db db')
    (he : p.Exec (amid (Apart I own part i) (E.serve φ i)) db h a db₁) :
    a = (p.run (E.perform i) db').1 ∧
    ∃ b', R b' a ∧ Alike I V own part i b' db₁ (p.run (E.perform i) db').2 := by
  induction he generalizing b db' with
  | done a db => exact ⟨rfl, b, hp, halike⟩
  | @call c k db db₂ db₃ r h a hs hrest ih =>
    obtain ⟨db₁, hothers, hs⟩ := hs
    have hserved : (r, db₂) = E.perform i c db₁ := by
      rcases hs with hs | ⟨_, _, _, ⟨hlost, -⟩ | ⟨hlost, -⟩⟩
      · exact hs
      · exact absurd hlost hφ
      · exact absurd hlost hφ'
    obtain ⟨hanswer, b', hp', halike'⟩ := hp.alike hl (halike.apart hothers)
    rw [← hserved] at hanswer hp' halike'
    unfold Prog.run
    rw [← hanswer]
    exact ih hp' halike'

/-! ### Programs that only read -/

/-- A statement that never writes. -/
def Engine.Reads (E : Engine T W K ε Q Rep) (q : Q) : Prop :=
  ∀ t r ws, E.exec q t = .ok (r, ws) → ws = []

/-- A call outside a transaction of a statement that never writes. -/
def Engine.ReadCall (E : Engine T W K ε Q Rep) (c : DbCall Q) : Prop := ∃ q, c = .query q ∧ E.Reads q

lemma perform_reads {i : ι} {q : Q} (hq : E.Reads q) (db : Db ι T W K) :
    (E.perform i (.query q) db).2 = db := by
  cases hexec : E.exec q db.tables with
  | error e => simp only [Engine.perform, hexec]
  | ok x =>
    obtain ⟨r, ws⟩ := x
    obtain rfl := hq _ _ _ hexec
    simp only [Engine.perform, hexec, Engine.commit]

lemma Engine.ReadCall.still {φ : Faults ε} {i : ι} {c : DbCall Q} {db db' : Db ι T W K}
    {r : DbAnswer ε Rep c} (hc : E.ReadCall c) (hs : E.serve φ i c db r db') : db' = db := by
  obtain ⟨q, rfl, hq⟩ := hc
  rcases hs with h | ⟨e, -, -, ⟨-, rfl⟩ | ⟨-, h⟩⟩
  · exact (congrArg Prod.snd h).trans (perform_reads hq db)
  · rfl
  · exact h.trans (perform_reads hq db)

/-- A program that only reads leaves the database as it is. -/
lemma always_reads {φ : Faults ε} {i : ι} {R : α → Prop} {p : Prog (DbCall Q) (DbAnswer ε Rep) α}
    (hp : p.CallsTo E.ReadCall R) (db : Db ι T W K) :
    p.Always (E.serve φ i) (fun a db' => db' = db ∧ R a) db := by
  induction p with
  | done a => exact ⟨rfl, hp⟩
  | call c k ih =>
    intro r db' hs
    obtain rfl := hp.1.still hs
    exact ih r (hp.2 r)

/-! ### Clients with confined programs -/

section clients

variable {ℓ Op : Type} {S : System ι ℓ Op (DbCall Q) (DbAnswer ε Rep) α (Db ι T W K)} {J : ℓ → Prop}

/-- What holds of a client whose programs are confined. -/
def ClientConfined (S : System ι ℓ Op (DbCall Q) (DbAnswer ε Rep) α (Db ι T W K)) (P : Q → Prop)
    (I : T → Prop) (V : W → Prop) (J : ℓ → Prop) (i : ι) (db : Db ι T W K) :
    Client ℓ Op (DbCall Q) (DbAnswer ε Rep) α (Db ι T W K) → Prop
  | .idle l => J l
  | .busy l op _ p => ∃ b, Confined P (fun _ a => ∀ h, J (S.finish l op h a)) b p ∧
      (b = true → OwnTx I V i db)

omit [DecidableEq ι] [DecidableEq K] in
lemma ClientConfined.congr {i : ι} {db db' : Db ι T W K} (htx : db'.tx i = db.tx i)
    {cl : Client ℓ Op (DbCall Q) (DbAnswer ε Rep) α (Db ι T W K)}
    (h : ClientConfined S P I V J i db cl) : ClientConfined S P I V J i db' cl := by
  cases cl with
  | idle l => exact h
  | busy l op hist p =>
    obtain ⟨b, hp, hown⟩ := h
    refine ⟨b, hp, fun hb tx => ?_⟩
    rw [htx]
    exact hown hb tx

lemma serve_tx {φ : Faults ε} {i j : ι} {c : DbCall Q} {db db' : Db ι T W K}
    {r : DbAnswer ε Rep c} (hs : E.serve φ i c db r db') (hj : j ≠ i) : db'.tx j = db.tx j := by
  rcases hs with h | ⟨e, -, -, ⟨-, rfl⟩ | ⟨-, h⟩⟩
  · have hdb : db' = (E.perform i c db).2 := congrArg Prod.snd h
    rw [hdb]
    exact (E.perform_tx i c db).1 j hj
  · rfl
  · rw [h]
    exact (E.perform_tx i c db).1 j hj

/-- Every run of clients with confined programs keeps the invariant. -/
theorem System.Run.confined (hk : Kept E P I V) {φ : Faults ε}
    (hserve : ∀ i, S.serve i = E.serve φ i)
    (hcode : ∀ l op, J l → Confined P (fun _ a => ∀ h, J (S.finish l op h a)) false (S.code l op))
    {db₀ : Db ι T W K} {l₀ : ι → ℓ} (hI : I db₀.tables) (hJ : ∀ i, J (l₀ i))
    {tr : List (Label ι ℓ Op (DbCall Q) (DbAnswer ε Rep) α (Db ι T W K))}
    {c : Config ι ℓ Op (DbCall Q) (DbAnswer ε Rep) α (Db ι T W K)}
    (hr : S.Run ⟨db₀, fun i => .idle (l₀ i)⟩ tr c) :
    I c.shared.tables ∧ ∀ i, ClientConfined S P I V J i c.shared (c.client i) := by
  induction hr with
  | nil => exact ⟨hI, hJ⟩
  | @snoc tr c e c' hr hs ih =>
    obtain ⟨hinv, hclients⟩ := ih
    cases hs with
    | @start s cl i l op hi =>
      refine ⟨hinv, fun j => ?_⟩
      have hl : ClientConfined S P I V J i s (cl i) := hclients i
      rw [hi] at hl
      by_cases hj : j = i
      · subst hj
        simp only [Function.update_self]
        exact ⟨false, hcode l op hl, nofun⟩
      · simpa [hj] using hclients j
    | @call s cl i l op h d k r s' hi hd =>
      have hl : ClientConfined S P I V J i s (cl i) := hclients i
      rw [hi] at hl
      rw [hserve] at hd
      obtain ⟨b, hp, hown⟩ := hl
      obtain ⟨b', hp', hown', hmoves⟩ := hp.step hk hd hinv hown
      refine ⟨hmoves.keeps hk hinv, fun j => ?_⟩
      by_cases hj : j = i
      · subst hj
        simp only [Function.update_self]
        exact ⟨b', hp', hown'⟩
      · simp only [Function.update_of_ne hj]
        exact (hclients j).congr (serve_tx hd hj)
    | @finish s cl i l op h a hi =>
      have hl : ClientConfined S P I V J i s (cl i) := hclients i
      rw [hi] at hl
      obtain ⟨b, hp, -⟩ := hl
      refine ⟨hinv, fun j => ?_⟩
      by_cases hj : j = i
      · subst hj
        simp only [Function.update_self]
        exact hp h
      · simpa [hj] using hclients j

end clients

end Library
