import ActiveGraphSurreal.Proofs.LedgerWrites

/-!
# Rules for the calls of a method

A `Setting` is a client at work: the faults of its connection, what it relies on while
others use the database and what it may commit. `Wp` says that from a state on, whatever
the others do within the reliance, every commit is an allowed one and the method ends in
`Q`. There is one rule for each kind of call and one for each way to put methods together.
-/

namespace ActiveGraphSurreal

open Library

set_option linter.unusedSectionVars false

abbrev Rec := CallRec Call Answer Database

abbrev Hist := List Rec

variable {F X : Type} [Json.ScalarText F] (env : Env F X) (sdk : Sdk)

/-- The states of a database in which only the provider has written. -/
def Consistent (db : Database) : Prop := (guarded env).Consistent db

/-- Nothing was committed on the way. -/
structure Same (a b : Database) : Prop where
  tables : b.tables = a.tables
  log : b.log = a.log

lemma same_refl (s : Database) : Same s s := ⟨rfl, rfl⟩

lemma Same.past {a b : Database} (h : Same a b) : Past a.tables b.tables :=
  h.tables ▸ past_refl _

/-- None of the calls has committed anything. -/
def Quiet (h : Hist) : Prop := ∀ rec ∈ h, Same rec.before rec.after

lemma quiet_nil : Quiet [] := by
  intro rec hrec
  cases hrec

lemma Quiet.append {h h' : Hist} (hh : Quiet h) (hh' : Quiet h') : Quiet (h ++ h') := by
  intro rec hrec
  rcases List.mem_append.mp hrec with hrec | hrec
  · exact hh rec hrec
  · exact hh' rec hrec

lemma Quiet.concat {h : Hist} {rec : Rec} (hh : Quiet h)
    (hrec : Same rec.before rec.after) : Quiet (h ++ [rec]) := by
  apply hh.append
  intro rec' hrec'
  rw [List.mem_singleton.mp hrec']
  exact hrec

/-- `drift` is what a client knows about the way from one state to a later one while it
commits nothing itself. If it is `alone`, nobody else does. -/
structure Setting where
  lostCall : Prop
  lostAnswer : Prop
  alone : Prop
  client : Nat
  rely : Database → Database → Prop
  drift : Database → Database → Prop
  allowed : Call → List Write → Tables → Prop
  rely_sound : ∀ a b, rely a b → (guarded env).Rely client a b
  drift_rely : ∀ a b, rely a b → drift a b
  drift_quiet : ∀ a b, Same a b → drift a b
  drift_trans : ∀ a b c, drift a b → drift b c → drift a c
  drift_past : ∀ a b, drift a b → Past a.tables b.tables
  drift_alone : alone → ∀ a b, drift a b → Same a b

/-- What a call commits when it is carried out. -/
def Writes (i : Nat) (c : Call) (db : Database) (ws : List Write) : Prop :=
  (∃ st r, c = .query st ∧ st.exec sdk db.tables = .ok (r, ws)) ∨
  ∃ tx, c = .commit ∧ db.tx i = some tx ∧ (engine sdk).conflicts db tx = false ∧ tx.writes = ws

namespace Setting

variable {env} (S : Setting env)

def serve : Server Call Answer Database :=
  (engine sdk).serve (faults S.lostCall S.lostAnswer) S.client

/-- Every commit is lawful and allowed. -/
def guar (rec : Rec) : Prop :=
  (guarded env).Lawfully (engine sdk) rec.before rec.after (S.allowed rec.call)

def Wp {α : Type} (Q : Hist → α → Database → Prop) (h : Hist) (p : Prog Call Answer α)
    (s : Database) : Prop :=
  Prog.Safe (S.serve sdk) S.rely (S.guar sdk) Q h p s

/-- The call was not carried out, or its answer was lost. -/
def Lost (rec : Rec) : Prop :=
  S.serve sdk rec.call rec.before rec.answer rec.after ∧
    (rec.answer, rec.after) ≠ (engine sdk).perform S.client rec.call rec.before

variable {sdk} {S}

lemma consistent_of_rely {a b : Database} (hc : Consistent env a) (h : S.rely a b) :
    Consistent env b := (S.rely_sound a b h).2.1 hc

lemma tx_of_rely {a b : Database} (h : S.rely a b) : b.tx S.client = a.tx S.client :=
  (S.rely_sound a b h).2.2

/-- A call is carried out or lost. -/
lemma serve_cases {c : Call} {s s' : Database} {r : Answer c} (h : S.serve sdk c s r s') :
    (r, s') = (engine sdk).perform S.client c s ∨
    (S.Lost sdk ⟨c, s, r, s'⟩ ∧ ∃ e : PyErr, e.cls.IsSdk ∧ r = failed e c ∧
      (S.lostCall ∧ s' = s ∨ S.lostAnswer ∧ s' = ((engine sdk).perform S.client c s).2)) := by
  by_cases hlost : (r, s') = (engine sdk).perform S.client c s
  · exact .inl hlost
  · have hserve := h
    rcases h with h | ⟨e, he, hr, hs⟩
    · exact absurd h hlost
    · exact .inr ⟨⟨hserve, hlost⟩, e, he, hr, hs⟩

/-- The tables after a call: as before, or with its writes. -/
lemma serve_tables {c : Call} {s s' : Database} {r : Answer c} (h : S.serve sdk c s r s') :
    (s'.tables = s.tables ∧ s'.log = s.log) ∨
    ∃ ws, ws ≠ [] ∧ Writes sdk S.client c s ws ∧ (engine sdk).Commits ws s s' := by
  have hperform : ∀ s', s' = ((engine sdk).perform S.client c s).2 →
      (s'.tables = s.tables ∧ s'.log = s.log) ∨
      ∃ ws, ws ≠ [] ∧ Writes sdk S.client c s ws ∧ (engine sdk).Commits ws s s' := by
    rintro s' rfl
    rcases (engine sdk).perform_tables S.client c s with hsame |
      ⟨q, r, ws, hq, hexec, hne, hcom⟩ | ⟨tx, hcommit, htx, hconf, hne, hcom⟩
    · exact .inl hsame
    · exact .inr ⟨ws, hne, .inl ⟨q, r, hq, hexec⟩, hcom⟩
    · exact .inr ⟨tx.writes, hne, .inr ⟨tx, hcommit, htx, hconf, rfl⟩, hcom⟩
  rcases serve_cases h with h | ⟨-, e, -, -, ⟨-, rfl⟩ | ⟨-, h⟩⟩
  · exact hperform s' (congrArg Prod.snd h)
  · exact .inl ⟨rfl, rfl⟩
  · exact hperform s' h

variable {α β ℓ : Type} {Q : Hist → α → Database → Prop} {h : Hist} {s : Database}

/-- The rule for every call: what it may commit is lawful and allowed. -/
theorem wp_call {c : Call} {k : Answer c → Prog Call Answer α} (hc : Consistent env s)
    (hws : ∀ s₁, S.rely s s₁ → Consistent env s₁ → ∀ ws, ws ≠ [] → Writes sdk S.client c s₁ ws →
      (guarded env).Lawful (engine sdk) ws s₁.tables ∧ S.allowed c ws s₁.tables)
    (hk : ∀ s₁ r s₂, S.rely s s₁ → Consistent env s₁ → S.serve sdk c s₁ r s₂ →
      Consistent env s₂ → S.Wp sdk Q (h ++ [⟨c, s₁, r, s₂⟩]) (k r) s₂) :
    S.Wp sdk Q h (.call c k) s := by
  intro s₁ hrely r s₂ hserve
  have hc₁ := consistent_of_rely hc hrely
  have hguar : S.guar sdk ⟨c, s₁, r, s₂⟩ := by
    rcases serve_tables hserve with hsame | ⟨ws, hne, hw, hcom⟩
    · exact .inl hsame
    · obtain ⟨hlawful, hallowed⟩ := hws s₁ hrely hc₁ ws hne hw
      exact .inr ⟨ws, hcom, hlawful, hallowed⟩
  have hc₂ : Consistent env s₂ := ((guarded env).served (engine sdk) hserve hguar hc₁).1
  exact ⟨hguar, hk s₁ r s₂ hrely hc₁ hserve hc₂⟩

/-- A statement that only reads leaves the state as it is. -/
theorem wp_read {st : Stmt} {k : Answer (.query st) → Prog Call Answer α}
    (hread : ∀ t r ws, st.exec sdk t = .ok (r, ws) → ws = []) (hc : Consistent env s)
    (hk : ∀ s₁ r, S.rely s s₁ → Consistent env s₁ →
      (r = (st.exec sdk s₁.tables).map Prod.fst ∨
        (S.Lost sdk ⟨.query st, s₁, r, s₁⟩ ∧ ∃ e : PyErr, e.cls.IsSdk ∧ r = .error e)) →
      S.Wp sdk Q (h ++ [⟨.query st, s₁, r, s₁⟩]) (k r) s₁) :
    S.Wp sdk Q h (.call (.query st) k) s := by
  apply wp_call hc
  · intro s₁ _ _ ws hne hw
    rcases hw with ⟨st', r, hst, hexec⟩ | ⟨tx, hcommit, -⟩
    · obtain rfl : st = st' := DbCall.query.inj hst
      exact absurd (hread _ _ _ hexec) hne
    · cases hcommit
  · intro s₁ r s₂ hrely hc₁ hserve hc₂
    have hperform : (engine sdk).perform S.client (.query st) s₁ =
        ((st.exec sdk s₁.tables).map Prod.fst, s₁) := by
      cases hexec : st.exec sdk s₁.tables with
      | error e => simp [Engine.perform, engine, hexec, Except.map]
      | ok p =>
        obtain ⟨r, ws⟩ := p
        obtain rfl := hread _ _ _ hexec
        simp [Engine.perform, engine, hexec, Engine.commit, Except.map]
    rcases serve_cases hserve with h | ⟨hlost, e, he, hr, ⟨-, rfl⟩ | ⟨-, h⟩⟩
    · rw [hperform] at h
      obtain ⟨hr, rfl⟩ := Prod.mk.inj h
      exact hk s₂ r hrely hc₁ (.inl hr)
    · exact hk s₂ r hrely hc₁ (.inr ⟨hlost, e, he, hr⟩)
    · rw [hperform] at h
      obtain rfl : s₂ = s₁ := h
      exact hk s₂ r hrely hc₁ (.inr ⟨hlost, e, he, hr⟩)

/-- What a statement outside a transaction can do. -/
inductive Ran (S : Setting env) (sdk : Sdk) (st : Stmt) (s₁ s₂ : Database) :
    Answer (.query st) → Prop
  | done {r ws} (hexec : st.exec sdk s₁.tables = .ok (r, ws))
      (ht : s₂.tables = (engine sdk).applyAll ws s₁.tables) : Ran S sdk st s₁ s₂ (.ok r)
  | failed {e} (hexec : st.exec sdk s₁.tables = .error e) (ht : s₂.tables = s₁.tables) :
      Ran S sdk st s₁ s₂ (.error e)
  | lost {e} (he : e.cls.IsSdk) (hlost : S.Lost sdk ⟨.query st, s₁, .error e, s₂⟩)
      (ht : s₂.tables = s₁.tables ∨ S.lostAnswer ∧ ∃ r ws, st.exec sdk s₁.tables = .ok (r, ws) ∧
        s₂.tables = (engine sdk).applyAll ws s₁.tables) : Ran S sdk st s₁ s₂ (.error e)

lemma perform_query_tables {st : Stmt} {s : Database} {r : st.Reply} {ws : List Write} {i : Nat}
    (hexec : st.exec sdk s.tables = .ok (r, ws)) :
    ((engine sdk).perform i (.query st) s).2.tables = (engine sdk).applyAll ws s.tables := by
  have hperform : (engine sdk).perform i (.query st) s = (.ok r, (engine sdk).commit ws s) := by
    simp [Engine.perform, engine, hexec]
  rw [hperform]
  cases ws with
  | nil => rfl
  | cons w ws => rfl

/-- The rule for a statement that may write. -/
theorem wp_query {st : Stmt} {k : Answer (.query st) → Prog Call Answer α}
    (hc : Consistent env s)
    (hws : ∀ s₁ r ws, S.rely s s₁ → Consistent env s₁ → st.exec sdk s₁.tables = .ok (r, ws) →
      (guarded env).Lawful (engine sdk) ws s₁.tables ∧ S.allowed (.query st) ws s₁.tables)
    (hk : ∀ s₁ r s₂, S.rely s s₁ → Consistent env s₁ → Consistent env s₂ →
      Ran S sdk st s₁ s₂ r → S.Wp sdk Q (h ++ [⟨.query st, s₁, r, s₂⟩]) (k r) s₂) :
    S.Wp sdk Q h (.call (.query st) k) s := by
  apply wp_call hc
  · rintro s₁ hrely hc₁ ws - (⟨st', r, hst, hexec⟩ | ⟨tx, hcommit, -⟩)
    · obtain rfl : st = st' := DbCall.query.inj hst
      exact hws s₁ r ws hrely hc₁ hexec
    · cases hcommit
  · intro s₁ r s₂ hrely hc₁ hserve hc₂
    apply hk s₁ r s₂ hrely hc₁ hc₂
    cases hexec : st.exec sdk s₁.tables with
    | error e =>
      have hperform : (engine sdk).perform S.client (.query st) s₁ = (.error e, s₁) := by
        simp [Engine.perform, engine, hexec]
      rcases serve_cases hserve with h | ⟨hlost, e', he', rfl, ⟨-, rfl⟩ | ⟨-, h⟩⟩
      · rw [hperform] at h
        obtain ⟨rfl, rfl⟩ := Prod.mk.inj h
        exact .failed hexec rfl
      · exact .lost he' hlost (.inl rfl)
      · rw [hperform] at h
        obtain rfl : s₂ = s₁ := h
        exact .lost he' hlost (.inl rfl)
    | ok p =>
      obtain ⟨r', ws⟩ := p
      have htables := perform_query_tables (i := S.client) hexec
      have hanswer : ((engine sdk).perform S.client (.query st) s₁).1 = .ok r' := by
        simp [Engine.perform, engine, hexec]
      rcases serve_cases hserve with h | ⟨hlost, e', he', rfl, ⟨-, rfl⟩ | ⟨hla, rfl⟩⟩
      · obtain ⟨hr, hs⟩ := Prod.ext_iff.mp h
        simp only at hr hs
        rw [hr, hanswer]
        exact .done hexec (hs ▸ htables)
      · exact .lost he' hlost (.inl rfl)
      · exact .lost he' hlost (.inr ⟨hla, r', ws, hexec, htables⟩)

/-- Calls that commit nothing, whatever they answer. -/
theorem wp_quiet {c : Call} {k : Answer c → Prog Call Answer α} (hc : Consistent env s)
    (hquiet : ∀ s₁ ws, Writes sdk S.client c s₁ ws → ws = [])
    (hk : ∀ s₁ r s₂, S.rely s s₁ → Consistent env s₁ → S.serve sdk c s₁ r s₂ →
      Consistent env s₂ → Same s₁ s₂ → S.Wp sdk Q (h ++ [⟨c, s₁, r, s₂⟩]) (k r) s₂) :
    S.Wp sdk Q h (.call c k) s := by
  apply wp_call hc
  · intro s₁ _ _ ws hne hw
    exact absurd (hquiet s₁ ws hw) hne
  · intro s₁ r s₂ hrely hc₁ hserve hc₂
    rcases serve_tables hserve with ⟨ht, hlog⟩ | ⟨ws, hne, hw, -⟩
    · exact hk s₁ r s₂ hrely hc₁ hserve hc₂ ⟨ht, hlog⟩
    · exact absurd (hquiet s₁ ws hw) hne

/-! ### Transactions -/

theorem wp_begin {k : Answer .begin → Prog Call Answer α} (hc : Consistent env s)
    (hok : ∀ s₁ s₂, S.rely s s₁ → Consistent env s₁ → Consistent env s₂ → Same s₁ s₂ →
      s₂.tx S.client = some ⟨s₁.tables, s₁.log.length, []⟩ →
      S.Wp sdk Q (h ++ [⟨.begin, s₁, .ok (), s₂⟩]) (k (.ok ())) s₂)
    (hlost : ∀ s₁ s₂ e, S.rely s s₁ → Consistent env s₁ → Consistent env s₂ →
      Same s₁ s₂ → e.cls.IsSdk →
      S.Lost sdk ⟨.begin, s₁, .error e, s₂⟩ →
      S.Wp sdk Q (h ++ [⟨.begin, s₁, .error e, s₂⟩]) (k (.error e)) s₂) :
    S.Wp sdk Q h (.call .begin k) s := by
  refine wp_quiet hc ?_ ?_
  · rintro s₁ ws (⟨st, r, hst, -⟩ | ⟨tx, hcommit, -⟩)
    · cases hst
    · cases hcommit
  · intro s₁ r s₂ hrely hc₁ hserve hc₂ hsame
    rcases serve_cases hserve with h | ⟨hl, e, he, rfl, -⟩
    · obtain ⟨rfl, rfl⟩ := Prod.mk.inj h
      exact hok s₁ _ hrely hc₁ hc₂ hsame (by simp)
    · exact hlost s₁ s₂ e hrely hc₁ hc₂ hsame he hl

theorem wp_cancel {k : Answer .cancel → Prog Call Answer α} (hc : Consistent env s)
    (hk : ∀ s₁ r s₂, S.rely s s₁ → Consistent env s₁ → Consistent env s₂ →
      Same s₁ s₂ →
      S.Wp sdk Q (h ++ [⟨.cancel, s₁, r, s₂⟩]) (k r) s₂) :
    S.Wp sdk Q h (.call .cancel k) s := by
  refine wp_quiet hc ?_ ?_
  · rintro s₁ ws (⟨st, r, hst, -⟩ | ⟨tx, hcommit, -⟩)
    · cases hst
    · cases hcommit
  · intro s₁ r s₂ hrely hc₁ _ hc₂ hsame
    exact hk s₁ r s₂ hrely hc₁ hc₂ hsame

/-- A statement in a transaction runs on its view and adds its writes. -/
theorem wp_txQuery {st : Stmt} {k : Answer (.txQuery st) → Prog Call Answer α}
    {tx : Tx Tables Write} (hc : Consistent env s) (htx : s.tx S.client = some tx)
    (hok : ∀ s₁ s₂ r ws, S.rely s s₁ → Consistent env s₁ → Consistent env s₂ →
      Same s₁ s₂ →
      st.exec sdk ((engine sdk).view tx) = .ok (r, ws) →
      s₂.tx S.client = some { tx with writes := tx.writes ++ ws } →
      S.Wp sdk Q (h ++ [⟨.txQuery st, s₁, .ok r, s₂⟩]) (k (.ok r)) s₂)
    (herror : ∀ s₁ s₂ e, S.rely s s₁ → Consistent env s₁ → Consistent env s₂ →
      Same s₁ s₂ →
      (st.exec sdk ((engine sdk).view tx) = .error e ∨
        e.cls.IsSdk ∧ S.Lost sdk ⟨.txQuery st, s₁, .error e, s₂⟩) →
      S.Wp sdk Q (h ++ [⟨.txQuery st, s₁, .error e, s₂⟩]) (k (.error e)) s₂) :
    S.Wp sdk Q h (.call (.txQuery st) k) s := by
  refine wp_quiet hc ?_ ?_
  · rintro s₁ ws (⟨st', r, hst, -⟩ | ⟨tx', hcommit, -⟩)
    · cases hst
    · cases hcommit
  · intro s₁ r s₂ hrely hc₁ hserve hc₂ hsame
    have htx₁ : s₁.tx S.client = some tx := (tx_of_rely hrely).trans htx
    rcases serve_cases hserve with h | ⟨hl, e, he, rfl, -⟩
    · cases hexec : (engine sdk).exec st ((engine sdk).view tx) with
      | error e =>
        rw [Engine.perform_txQuery_error _ htx₁ hexec] at h
        obtain ⟨rfl, rfl⟩ := Prod.mk.inj h
        exact herror s₂ s₂ e hrely hc₁ hc₂ hsame (.inl hexec)
      | ok p =>
        obtain ⟨rep, ws⟩ := p
        rw [Engine.perform_txQuery_ok _ htx₁ hexec] at h
        obtain ⟨rfl, rfl⟩ := Prod.mk.inj h
        exact hok s₁ _ rep ws hrely hc₁ hc₂ hsame hexec (by simp)
    · exact herror s₁ s₂ e hrely hc₁ hc₂ hsame (.inr ⟨he, hl⟩)

/-- The rule for a statement whose answer on the view is known. -/
theorem wp_txStep {st : Stmt} {k : Answer (.txQuery st) → Prog Call Answer α}
    {tx : Tx Tables Write} {r : st.Reply} {ws : List Write} (hc : Consistent env s)
    (htx : s.tx S.client = some tx) (hexec : st.exec sdk ((engine sdk).view tx) = .ok (r, ws))
    (hok : ∀ s₁ s₂, S.drift s s₂ → Consistent env s₂ → Same s₁ s₂ →
      s₂.tx S.client = some { tx with writes := tx.writes ++ ws } →
      S.Wp sdk Q (h ++ [⟨.txQuery st, s₁, .ok r, s₂⟩]) (k (.ok r)) s₂)
    (hlost : ∀ s₁ s₂ e, S.drift s s₂ → Consistent env s₂ → Same s₁ s₂ →
      e.cls.IsSdk → S.Lost sdk ⟨.txQuery st, s₁, .error e, s₂⟩ →
      S.Wp sdk Q (h ++ [⟨.txQuery st, s₁, .error e, s₂⟩]) (k (.error e)) s₂) :
    S.Wp sdk Q h (.call (.txQuery st) k) s := by
  have hdrift : ∀ s₁ s₂ : Database, S.rely s s₁ → Same s₁ s₂ → S.drift s s₂ :=
    fun s₁ s₂ hrely hsame =>
    S.drift_trans _ _ _ (S.drift_rely _ _ hrely) (S.drift_quiet _ _ hsame)
  refine wp_txQuery hc htx ?_ ?_
  · intro s₁ s₂ r' ws' hrely _ hc₂ hsame hexec' htx₂
    obtain ⟨rfl, rfl⟩ := Prod.mk.inj (Except.ok.inj (hexec'.symm.trans hexec))
    exact hok s₁ s₂ (hdrift s₁ s₂ hrely hsame) hc₂ hsame htx₂
  · rintro s₁ s₂ e hrely - hc₂ hsame (herror | ⟨he, hl⟩)
    · rw [hexec] at herror
      cases herror
    · exact hlost s₁ s₂ e (hdrift s₁ s₂ hrely hsame) hc₂ hsame he hl

/-- A read in a transaction leaves the transaction as it is. -/
theorem wp_txRead {st : Stmt} {k : Answer (.txQuery st) → Prog Call Answer α}
    {tx : Tx Tables Write} {r : st.Reply} (hc : Consistent env s)
    (htx : s.tx S.client = some tx) (hexec : st.exec sdk ((engine sdk).view tx) = .ok (r, []))
    (hok : ∀ s₁ s₂, S.drift s s₂ → Consistent env s₂ → Same s₁ s₂ →
      s₂.tx S.client = some tx → S.Wp sdk Q (h ++ [⟨.txQuery st, s₁, .ok r, s₂⟩]) (k (.ok r)) s₂)
    (hlost : ∀ s₁ s₂ e, S.drift s s₂ → Consistent env s₂ → Same s₁ s₂ →
      e.cls.IsSdk → S.Lost sdk ⟨.txQuery st, s₁, .error e, s₂⟩ →
      S.Wp sdk Q (h ++ [⟨.txQuery st, s₁, .error e, s₂⟩]) (k (.error e)) s₂) :
    S.Wp sdk Q h (.call (.txQuery st) k) s := by
  refine wp_txStep hc htx hexec (fun s₁ s₂ hd hc₂ hsame htx₂ => ?_) hlost
  rw [List.append_nil] at htx₂
  exact hok s₁ s₂ hd hc₂ hsame htx₂

/-- A commit goes through, meets a conflict or is lost. If it takes effect, nobody has
committed to the records it writes since the transaction began. -/
theorem wp_commit {k : Answer .commit → Prog Call Answer α} {tx : Tx Tables Write}
    (hc : Consistent env s) (htx : s.tx S.client = some tx) (hne : tx.writes ≠ [])
    (hws : ∀ s₁, S.rely s s₁ → Consistent env s₁ → (engine sdk).conflicts s₁ tx = false →
      (guarded env).Lawful (engine sdk) tx.writes s₁.tables ∧
        S.allowed .commit tx.writes s₁.tables)
    (hok : ∀ s₁ s₂, S.rely s s₁ → Consistent env s₁ → Consistent env s₂ →
      (engine sdk).conflicts s₁ tx = false → (engine sdk).Commits tx.writes s₁ s₂ →
      S.Wp sdk Q (h ++ [⟨.commit, s₁, .ok (), s₂⟩]) (k (.ok ())) s₂)
    (hconflict : ∀ s₁ s₂, S.rely s s₁ → Consistent env s₁ → Consistent env s₂ →
      (engine sdk).conflicts s₁ tx = true → Same s₁ s₂ →
      S.Wp sdk Q (h ++ [⟨.commit, s₁, .error (sdk.error .writeConflict), s₂⟩])
        (k (.error (sdk.error .writeConflict))) s₂)
    (hlost : ∀ s₁ s₂ e, S.rely s s₁ → Consistent env s₁ → Consistent env s₂ → e.cls.IsSdk →
      S.Lost sdk ⟨.commit, s₁, .error e, s₂⟩ →
      (Same s₁ s₂ ∨
        (S.lostAnswer ∧ (engine sdk).conflicts s₁ tx = false ∧
          (engine sdk).Commits tx.writes s₁ s₂)) →
      S.Wp sdk Q (h ++ [⟨.commit, s₁, .error e, s₂⟩]) (k (.error e)) s₂) :
    S.Wp sdk Q h (.call .commit k) s := by
  have hown : ∀ s₁, S.rely s s₁ → s₁.tx S.client = some tx := fun s₁ hrely =>
    (tx_of_rely hrely).trans htx
  have hcommits : ∀ db : Database,
      (engine sdk).Commits tx.writes db ((engine sdk).commit tx.writes db) := by
    intro db
    rcases (engine sdk).commit_cases tx.writes db with ⟨hnil, -⟩ | ⟨-, hcom⟩
    · exact absurd hnil hne
    · exact hcom
  apply wp_call hc
  · rintro s₁ hrely hc₁ ws - (⟨st, r, hst, -⟩ | ⟨tx', -, htx', hconf, rfl⟩)
    · cases hst
    · obtain rfl : tx = tx' := Option.some.inj ((hown s₁ hrely).symm.trans htx')
      exact hws s₁ hrely hc₁ hconf
  · intro s₁ r s₂ hrely hc₁ hserve hc₂
    have hperform := (engine sdk).perform_commit (hown s₁ hrely)
    by_cases hconf : (engine sdk).conflicts s₁ tx = true
    · rw [if_pos hconf, if_pos hconf] at hperform
      rcases serve_cases hserve with h | ⟨hl, e, he, rfl, heffect⟩
      · rw [hperform] at h
        obtain ⟨rfl, rfl⟩ := Prod.mk.inj h
        exact hconflict s₁ _ hrely hc₁ hc₂ hconf ⟨rfl, rfl⟩
      · refine hlost s₁ s₂ e hrely hc₁ hc₂ he hl (.inl ?_)
        rcases heffect with ⟨-, rfl⟩ | ⟨-, rfl⟩
        · exact ⟨rfl, rfl⟩
        · rw [hperform]
          exact ⟨rfl, rfl⟩
    · have hfalse : (engine sdk).conflicts s₁ tx = false := by simpa using hconf
      rw [if_neg hconf, if_neg hconf] at hperform
      rcases serve_cases hserve with h | ⟨hl, e, he, rfl, heffect⟩
      · rw [hperform] at h
        obtain ⟨rfl, rfl⟩ := Prod.mk.inj h
        exact hok s₁ _ hrely hc₁ hc₂ hfalse (hcommits _)
      · refine hlost s₁ s₂ e hrely hc₁ hc₂ he hl ?_
        rcases heffect with ⟨-, rfl⟩ | ⟨hla, rfl⟩
        · exact .inl ⟨rfl, rfl⟩
        · rw [hperform]
          exact .inr ⟨hla, hfalse, hcommits _⟩

/-! ### Sequences -/

variable {Q : Hist → Except PyErr α × ℓ → Database → Prop}
  {Q' : Hist → Except PyErr β × ℓ → Database → Prop}

theorem wp_bind {m : Py ℓ α} {f : α → Py ℓ β} {l : ℓ} :
    S.Wp sdk Q' h ((m >>= f) l) s ↔
      S.Wp sdk (fun h x s => S.Wp sdk Q' h (Method.andThen f x) s) h (m l) s :=
  Prog.safe_bind_iff

theorem wp_tryElse {m : Py ℓ α} {onError : PyErr → Py ℓ β} {onOk : α → Py ℓ β} {l : ℓ} :
    S.Wp sdk Q' h (Method.tryElse m onError onOk l) s ↔
      S.Wp sdk (fun h x s => S.Wp sdk Q' h (Method.branch onError onOk x) s) h (m l) s :=
  Prog.safe_bind_iff

theorem wp_tryCatch {m : Py ℓ α} {f : PyErr → Py ℓ α} {l : ℓ} :
    S.Wp sdk Q h (tryCatch m f l) s ↔
      S.Wp sdk (fun h x s => S.Wp sdk Q h (Method.orElse f x) s) h (m l) s :=
  Prog.safe_bind_iff

@[simp] theorem wp_done {Q : Hist → α → Database → Prop} {a : α} :
    S.Wp sdk Q h (.done a) s ↔ Q h a s := Iff.rfl

@[simp] theorem wp_andThen_ok {f : α → Py ℓ β} {a : α} {l : ℓ} :
    S.Wp sdk Q' h (Method.andThen f (.ok a, l)) s ↔ S.Wp sdk Q' h (f a l) s := Iff.rfl

@[simp] theorem wp_andThen_error {f : α → Py ℓ β} {e : PyErr} {l : ℓ} :
    S.Wp sdk Q' h (Method.andThen f (.error e, l)) s ↔ Q' h (.error e, l) s := Iff.rfl

@[simp] theorem wp_orElse_ok {f : PyErr → Py ℓ α} {a : α} {l : ℓ} :
    S.Wp sdk Q h (Method.orElse f (.ok a, l)) s ↔ Q h (.ok a, l) s := Iff.rfl

@[simp] theorem wp_orElse_error {f : PyErr → Py ℓ α} {e : PyErr} {l : ℓ} :
    S.Wp sdk Q h (Method.orElse f (.error e, l)) s ↔ S.Wp sdk Q h (f e l) s := Iff.rfl

@[simp] theorem wp_branch_ok {onError : PyErr → Py ℓ β} {onOk : α → Py ℓ β} {a : α} {l : ℓ} :
    S.Wp sdk Q' h (Method.branch onError onOk (.ok a, l)) s ↔ S.Wp sdk Q' h (onOk a l) s := Iff.rfl

@[simp] theorem wp_branch_error {onError : PyErr → Py ℓ β} {onOk : α → Py ℓ β} {e : PyErr}
    {l : ℓ} : S.Wp sdk Q' h (Method.branch onError onOk (.error e, l)) s ↔
      S.Wp sdk Q' h (onError e l) s := Iff.rfl

@[simp] theorem wp_pure {a : α} {l : ℓ} :
    S.Wp sdk Q h ((pure a : Py ℓ α) l) s ↔ Q h (.ok a, l) s := Iff.rfl

@[simp] theorem wp_throw {e : PyErr} {l : ℓ} :
    S.Wp sdk Q h ((throw e : Py ℓ α) l) s ↔ Q h (.error e, l) s := Iff.rfl

@[simp] theorem wp_get {Q : Hist → Except PyErr ℓ × ℓ → Database → Prop} {l : ℓ} :
    S.Wp sdk Q h ((get : Py ℓ ℓ) l) s ↔ Q h (.ok l, l) s := Iff.rfl

@[simp] theorem wp_modify {Q : Hist → Except PyErr Unit × ℓ → Database → Prop} {f : ℓ → ℓ}
    {l : ℓ} : S.Wp sdk Q h ((modify f : Py ℓ Unit) l) s ↔ Q h (.ok (), f l) s := Iff.rfl

@[simp] theorem wp_lift {x : Except PyErr α} {l : ℓ} :
    S.Wp sdk Q h ((lift x : Py ℓ α) l) s ↔ Q h (x, l) s := by
  cases x with
  | error e => exact Iff.rfl
  | ok a => exact Iff.rfl

/-- `if bad: raise e` and what follows it. -/
lemma wp_guard {bad : Prop} [Decidable bad] {e : PyErr} {m : Unit → Py ℓ β} {l : ℓ}
    (hbad : bad → Q' h (.error e, l) s) (hgood : ¬ bad → S.Wp sdk Q' h (m () l) s) :
    S.Wp sdk Q' h ((lift (raiseIf bad e) >>= m) l) s := by
  rw [wp_bind, wp_lift]
  unfold raiseIf
  by_cases hcond : bad
  · rw [if_pos hcond, wp_andThen_error]
    exact hbad hcond
  · rw [if_neg hcond, wp_andThen_ok]
    exact hgood hcond

lemma wp_mono {Q Q' : Hist → α → Database → Prop} {p : Prog Call Answer α}
    (hp : S.Wp sdk Q h p s) (hQ : ∀ h a s, Q h a s → Q' h a s) : S.Wp sdk Q' h p s :=
  Prog.Safe.mono hQ hp

/-- Run records stay over a whole program. -/
lemma wp_past {Q : Hist → α → Database → Prop} {p : Prog Call Answer α} {s₀ : Database}
    (hpast : Past s₀.tables s.tables) (hp : S.Wp sdk Q h p s) :
    S.Wp sdk (fun h x s' => Q h x s' ∧ Past s₀.tables s'.tables) h p s := by
  induction p generalizing h s with
  | done a => exact ⟨hp, hpast⟩
  | call c k ih =>
    intro s₁ hrely r s₂ hserve
    obtain ⟨hguar, hrest⟩ := hp s₁ hrely r s₂ hserve
    have hpast₁ := past_trans _ _ _ hpast (S.rely_sound _ _ hrely).1
    refine ⟨hguar, ih r ?_ hrest⟩
    rcases hguar with ⟨ht, -⟩ | ⟨ws, hcom, hlawful, -⟩
    · rw [show s₂.tables = s₁.tables from ht]
      exact hpast₁
    · rw [show s₂.tables = _ from hcom.1]
      exact past_trans _ _ _ hpast₁ hlawful.2.1

end Setting

end ActiveGraphSurreal
