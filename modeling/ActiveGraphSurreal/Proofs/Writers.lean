import ActiveGraphSurreal.Proofs.Rules

/-!
# The operations that write to a run

How `append` and `truncate_after` end, among other users of the database and with lost
calls. Each takes effect in one commit, onto the list of events that its handle has
observed, or not at all.
-/

namespace ActiveGraphSurreal

open Library Setting

set_option linter.unusedSectionVars false

variable {F X : Type} [Json.ScalarText F] {env : Env F X} {sdk : Sdk} {S : Setting env}

/-- The scope and run of a handle. -/
def EventStore.address (self : EventStore) : String × String := (self.scope, self.runId)

/-- The handle expects the head of a list. -/
structure EventStore.Sees (env : Env F X) (store : EventStore) (L : List (LogEvent F)) : Prop where
  record : runKey env store.address = .ok store.runRecord
  nextSeq : store.expectedNextSeq = L.length
  headHash : store.expectedHeadHash = headOf env store.scope store.runId L

lemma expects_iff (hsha : CollisionFree env) {self : EventStore} {L M : List (LogEvent F)}
    {row : RunRow} (hself : self.Sees env L) (hrow : Ledger.HeadOf env self.address M row) :
    self.expects row ↔ M = L := by
  unfold EventStore.expects
  rw [hrow.nextSeq, hrow.headHash, hself.nextSeq, hself.headHash]
  constructor
  · rintro ⟨-, hhead⟩
    exact headOf_inj hsha hhead
  · rintro rfl
    exact ⟨rfl, rfl⟩

lemma ledger_run_eq {self : EventStore} (hkey : runKey env self.address = .ok self.runRecord)
    (t : Tables) : (t.ledger env self.address).run = t.run.lookup self.runRecord.key := by
  unfold Tables.ledger recordAt
  rw [hkey]

lemma ledger_event_eq {g : String × String} {id : String} {record : RecordId .agEvent}
    (hkey : eventKey env g id = .ok record) (t : Tables) :
    (t.ledger env g).event id = t.event.lookup record.key := by
  unfold Tables.ledger recordAt
  simp only
  rw [hkey]

section reads

variable {h : Hist} {s : Database} {self : EventStore}

/-- Reading the run row. The scope check passes on consistent tables. -/
lemma wp_readRunRow {Q : Hist → Except PyErr (Option RunRow) × EventStore → Database → Prop}
    (hc : Consistent env s) (hkey : runKey env self.address = .ok self.runRecord)
    (hrow : ∀ s₁, S.rely s s₁ → Consistent env s₁ →
      Q (h ++ [⟨.query (.selectRun self.runRecord), s₁,
        .ok (s₁.tables.ledger env self.address).run, s₁⟩])
        (.ok (s₁.tables.ledger env self.address).run, self) s₁)
    (hlost : ∀ s₁ e, S.rely s s₁ → Consistent env s₁ → e.cls.IsSdk →
      S.Lost sdk ⟨.query (.selectRun self.runRecord), s₁, .error e, s₁⟩ →
      Q (h ++ [⟨.query (.selectRun self.runRecord), s₁, .error e, s₁⟩]) (.error e, self) s₁) :
    S.Wp sdk Q h (EventStore.readRunRow self) s := by
  unfold EventStore.readRunRow
  rw [wp_bind, wp_get, wp_andThen_ok, wp_bind]
  refine wp_read (fun t r ws h => ?_) hc fun s₁ r hrely hc₁ hr => ?_
  · cases h
    rfl
  · rcases hr with rfl | ⟨hl, e, he, rfl⟩
    · have hq := hrow s₁ hrely hc₁
      rw [ledger_run_eq hkey] at hq
      cases hlookup : s₁.tables.run.lookup self.runRecord.key with
      | none =>
        rw [hlookup] at hq
        simp only [Stmt.exec, Except.map, hlookup]
        exact hq
      | some row =>
        have hhead := (hc₁.1.holds ((ledger_run_eq hkey _).trans hlookup)).2
        have hscope : ¬ (row.scope ≠ self.scope ∨ row.runId ≠ self.runId) := by
          simp only [not_or, not_not]
          exact ⟨hhead.scope, hhead.runId⟩
        rw [hlookup] at hq
        simpa only [Stmt.exec, Except.map, hlookup, wp_done, wp_andThen_ok, wp_bind, wp_lift,
          raiseIf, if_neg hscope, wp_pure] using hq
    · exact hlost s₁ e hrely hc₁ he hl

/-- Looking for the reason of a failure changes nothing. -/
lemma wp_raiseIfConcurrent {Q : Hist → Except PyErr Unit × EventStore → Database → Prop}
    {exc : PyErr} (hc : Consistent env s) (hkey : runKey env self.address = .ok self.runRecord)
    (hok : ∀ hs s', Quiet hs → S.drift s s' → Consistent env s' → Q (h ++ hs) (.ok (), self) s')
    (hraise : ∀ hs s' e, Quiet hs → S.drift s s' → Consistent env s' →
      e.cls = .concurrentWriterError → Q (h ++ hs) (.error e, self) s') :
    S.Wp sdk Q h (EventStore.raiseIfConcurrent env exc self) s := by
  unfold EventStore.raiseIfConcurrent
  rw [wp_bind, wp_get, wp_andThen_ok, wp_bind, wp_tryCatch]
  have hrest : ∀ (row : Option RunRow) (rec : Rec) (s₁ : Database),
      Same rec.before rec.after → S.rely s s₁ → Consistent env s₁ →
      S.Wp sdk Q (h ++ [rec]) (lift (raiseIf
        ((row.any fun row => ¬ self.expects row) ∨ hasConflictWord exc.text)
        ⟨.concurrentWriterError, "run " ++ env.repr self.runId ++
          " changed during a transactional write"⟩) self) s₁ := by
    intro row rec s₁ hsame hrely hc₁
    have hq : Quiet [rec] := quiet_nil.concat hsame
    rw [wp_lift]
    unfold raiseIf
    split
    · exact hraise [rec] s₁ _ hq (S.drift_rely _ _ hrely) hc₁ rfl
    · exact hok [rec] s₁ hq (S.drift_rely _ _ hrely) hc₁
  apply wp_readRunRow hc hkey
  · intro s₁ hrely hc₁
    exact hrest _ _ s₁ (same_refl _) hrely hc₁
  · intro s₁ e hrely hc₁ _ _
    exact hrest none _ s₁ (same_refl _) hrely hc₁

/-- The `except` branch ends in an error and leaves the handle as it was. -/
lemma wp_abandon {Q : Hist → Except PyErr Unit × EventStore → Database → Prop}
    {passed : List ErrClass} {exc : PyErr} (hc : Consistent env s)
    (hkey : runKey env self.address = .ok self.runRecord)
    (hQ : ∀ hs e s', Quiet hs → S.drift s s' → Consistent env s' →
      (e = exc ∨ exc.cls ∉ passed ∧ e.cls = .concurrentWriterError) →
      Q (h ++ hs) (.error e, self) s') :
    S.Wp sdk Q h (EventStore.abandon env passed exc self) s := by
  unfold EventStore.abandon
  rw [wp_bind]
  apply wp_cancel hc
  intro s₁ r s₂ hrely _ hc₂ hsame
  have hdrift : S.drift s s₂ :=
    S.drift_trans _ _ _ (S.drift_rely _ _ hrely) (S.drift_quiet _ _ hsame)
  have hq : Quiet [⟨.cancel, s₁, r, s₂⟩] := quiet_nil.concat hsame
  simp only [wp_done, wp_andThen_ok]
  rw [wp_bind, wp_lift]
  by_cases hpassed : exc.cls ∈ passed
  · rw [raiseIf, if_pos hpassed, wp_andThen_error]
    exact hQ _ exc s₂ hq hdrift hc₂ (.inl rfl)
  · rw [raiseIf, if_neg hpassed, wp_andThen_ok, wp_bind]
    apply wp_raiseIfConcurrent hc₂ hkey
    · intro hs s' hqs hd hc'
      rw [wp_andThen_ok, wp_throw, List.append_assoc]
      exact hQ _ exc s' (hq.append hqs) (S.drift_trans _ _ _ hdrift hd) hc' (.inl rfl)
    · intro hs s' e hqs hd hc' he
      rw [wp_andThen_error, List.append_assoc]
      exact hQ _ e s' (hq.append hqs) (S.drift_trans _ _ _ hdrift hd) hc' (.inr ⟨hpassed, he⟩)

end reads

/-! ### In a transaction -/

/-- A transaction that began after `s₀`, with the calls `h` so far. -/
structure InTx (S : Setting env) (s₀ : Database) (h : Hist) (s : Database)
    (tx : Tx Tables Write) : Prop where
  own : s.tx S.client = some tx
  quiet : Quiet h
  begun : ∃ sb sb' : Database, ⟨.begin, sb, .ok (), sb'⟩ ∈ h ∧ S.drift s₀ sb ∧ S.drift sb s ∧
    tx.snapshot = sb.tables ∧ tx.start = sb.log.length

/-- A method on an open handle. -/
lemma wp_ensureOpen {α : Type} {Q : Hist → Except PyErr α × EventStore → Database → Prop}
    {m : Unit → Py EventStore α} {store : EventStore} {h : Hist} {s : Database}
    (hclosed : ∀ e, store.closed = true → e.cls = .closedStoreError → Q h (.error e, store) s)
    (hopen : store.closed = false → S.Wp sdk Q h (m () store) s) :
    S.Wp sdk Q h ((EventStore.ensureOpen >>= m) store) s := by
  unfold EventStore.ensureOpen
  rw [wp_bind, wp_bind, wp_get, wp_andThen_ok, wp_lift, raiseIf]
  by_cases hc : store.closed = true
  · rw [if_pos hc, wp_andThen_error]
    exact hclosed _ hc rfl
  · rw [if_neg hc, wp_andThen_ok]
    exact hopen (by simpa using hc)

/-- The beginning of a transaction. -/
lemma wp_beginTx {α : Type} {Q : Hist → Except PyErr α × EventStore → Database → Prop}
    {m : Unit → Py EventStore α} {store : EventStore} {h : Hist} {s₀ s : Database}
    (hc : Consistent env s) (hq : Quiet h) (hd : S.drift s₀ s)
    (hlost : ∀ rec s₁ e, Consistent env s₁ → Quiet (h ++ [rec]) → S.drift s₀ s₁ →
      S.Lost sdk rec → Q (h ++ [rec]) (.error e, store) s₁)
    (hbegun : ∀ rec s₁ tx, Consistent env s₁ → InTx S s₀ (h ++ [rec]) s₁ tx → tx.writes = [] →
      S.Wp sdk Q (h ++ [rec]) (m () store) s₁) :
    S.Wp sdk Q h ((beginTransaction >>= m) store) s := by
  rw [wp_bind]
  apply wp_begin hc
  · intro s₁ s₂ hrely hc₁ hc₂ hsame hown
    simp only [wp_done, wp_andThen_ok]
    have hd₁ := S.drift_trans _ _ _ hd (S.drift_rely _ _ hrely)
    exact hbegun _ s₂ _ hc₂ ⟨hown, hq.concat hsame, s₁, s₂, by simp, hd₁,
      S.drift_quiet _ _ hsame, rfl, rfl⟩ rfl
  · intro s₁ s₂ e hrely hc₁ hc₂ hsame he hl
    simp only [wp_done, wp_andThen_error]
    have hd₁ := S.drift_trans _ _ _ hd (S.drift_rely _ _ hrely)
    exact hlost _ s₂ e hc₂ (hq.concat hsame) (S.drift_trans _ _ _ hd₁ (S.drift_quiet _ _ hsame)) hl

/-- `Q` allows for a lost call. -/
def Bears (sdk : Sdk) (S : Setting env) {α : Type} (store : EventStore) (s₀ : Database)
    (Q : Hist → Except PyErr α × EventStore → Database → Prop) : Prop :=
  ∀ h rec e s, Consistent env s → S.drift s₀ s → Quiet h → rec ∈ h → S.Lost sdk rec →
    Q h (.error e, store) s

lemma Bears.andThen {α β : Type} {store : EventStore} {s₀ : Database}
    {Q : Hist → Except PyErr β × EventStore → Database → Prop} (hQ : Bears sdk S store s₀ Q)
    (f : α → Py EventStore β) :
    Bears sdk S store s₀ fun h x s => S.Wp sdk Q h (Method.andThen f x) s := by
  intro h rec e s hc hd hq hrec hlost
  rw [wp_andThen_error]
  exact hQ h rec e s hc hd hq hrec hlost

namespace InTx

variable {h : Hist} {s s₀ : Database} {store : EventStore} {tx : Tx Tables Write}

lemma step {s' : Database} {rec : Rec} {tx' : Tx Tables Write} (htx : InTx S s₀ h s tx)
    (hd : S.drift s s') (hrec : Same rec.before rec.after)
    (hown : s'.tx S.client = some tx') (hsnap : tx'.snapshot = tx.snapshot)
    (hstart : tx'.start = tx.start) : InTx S s₀ (h ++ [rec]) s' tx' := by
  obtain ⟨sb, sb', hmem, hd₀, hdb, hs, hl⟩ := htx.begun
  exact ⟨hown, htx.quiet.concat hrec, sb, sb', List.mem_append_left _ hmem, hd₀,
    S.drift_trans _ _ _ hdb hd, hsnap.trans hs, hstart.trans hl⟩

lemma drift (htx : InTx S s₀ h s tx) : S.drift s₀ s := by
  obtain ⟨sb, sb', -, hd₀, hdb, -⟩ := htx.begun
  exact S.drift_trans _ _ _ hd₀ hdb

lemma view_eq (hnil : tx.writes = []) : (engine sdk).view tx = tx.snapshot := by
  unfold Engine.view
  rw [hnil, Engine.applyAll_nil]

variable {α : Type} {Q : Hist → Except PyErr α × EventStore → Database → Prop}

/-- A statement whose answer on the view is known, and what follows it. -/
lemma wp_step {st : Stmt} {f : st.Reply → Py EventStore α} {r : st.Reply} {ws : List Write}
    (htx : InTx S s₀ h s tx) (hc : Consistent env s) (hQ : Bears sdk S store s₀ Q)
    (hexec : st.exec sdk ((engine sdk).view tx) = .ok (r, ws))
    (hrest : ∀ rec s', Consistent env s' →
      InTx S s₀ (h ++ [rec]) s' { tx with writes := tx.writes ++ ws } →
      S.Wp sdk Q (h ++ [rec]) (f r store) s') :
    S.Wp sdk Q h ((txQuery st >>= f) store) s := by
  rw [wp_bind]
  apply wp_txStep hc htx.own hexec
  · intro s₁ s₂ hd hc₂ hsame hown
    simp only [wp_done, wp_andThen_ok]
    exact hrest _ s₂ hc₂ (htx.step hd hsame hown rfl rfl)
  · intro s₁ s₂ e hd hc₂ hsame _ hlost
    simp only [wp_done, wp_andThen_error]
    exact hQ _ _ e s₂ hc₂ (S.drift_trans _ _ _ htx.drift hd) (htx.quiet.concat hsame) (by simp) hlost

/-- A statement that may fail, and what follows it. -/
lemma wp_try {st : Stmt} {f : st.Reply → Py EventStore α} (htx : InTx S s₀ h s tx)
    (hc : Consistent env s) (herror : ∀ h' s' e, Consistent env s' → Q h' (.error e, store) s')
    (hrest : ∀ rec s' r ws, Consistent env s' →
      st.exec sdk ((engine sdk).view tx) = .ok (r, ws) →
      InTx S s₀ (h ++ [rec]) s' { tx with writes := tx.writes ++ ws } →
      S.Wp sdk Q (h ++ [rec]) (f r store) s') :
    S.Wp sdk Q h ((txQuery st >>= f) store) s := by
  rw [wp_bind]
  apply wp_txQuery hc htx.own
  · intro s₁ s₂ r ws hrely _ hc₂ hsame hexec hown
    have hd := S.drift_trans _ _ _ (S.drift_rely _ _ hrely) (S.drift_quiet _ _ hsame)
    simp only [wp_done, wp_andThen_ok]
    exact hrest _ s₂ r ws hc₂ hexec (htx.step hd hsame hown rfl rfl)
  · intro s₁ s₂ e hrely _ hc₂ hsame _
    simp only [wp_done, wp_andThen_error]
    exact herror _ s₂ e hc₂

lemma wp_read {st : Stmt} {f : st.Reply → Py EventStore α} {r : st.Reply}
    (htx : InTx S s₀ h s tx) (hc : Consistent env s) (hQ : Bears sdk S store s₀ Q)
    (hexec : st.exec sdk ((engine sdk).view tx) = .ok (r, []))
    (hrest : ∀ rec s', Consistent env s' → InTx S s₀ (h ++ [rec]) s' tx →
      S.Wp sdk Q (h ++ [rec]) (f r store) s') :
    S.Wp sdk Q h ((txQuery st >>= f) store) s := by
  apply htx.wp_step hc hQ hexec
  intro rec s' hc' htx'
  rw [List.append_nil] at htx'
  exact hrest rec s' hc' htx'

/-- The run row of a transaction that has written nothing yet. -/
lemma wp_runRow {f : RunRow → Py EventStore α} (htx : InTx S s₀ h s tx) (hc : Consistent env s)
    (hQ : Bears sdk S store s₀ Q) (hkey : runKey env store.address = .ok store.runRecord)
    (hnil : tx.writes = []) (hpresent : (tx.snapshot.ledger env store.address).run ≠ none)
    (hrest : ∀ rec s' row, Consistent env s' → InTx S s₀ (h ++ [rec]) s' tx →
      (tx.snapshot.ledger env store.address).run = some row →
      S.Wp sdk Q (h ++ [rec]) (f row store) s') :
    S.Wp sdk Q h ((EventStore.transactionRunRow env >>= f) store) s := by
  obtain ⟨row, hlookup⟩ := Option.ne_none_iff_exists'.mp hpresent
  have hhead := ((hc.2 _ _ htx.own).1.holds hlookup).2
  have hscope : ¬ (row.scope ≠ store.scope ∨ row.runId ≠ store.runId) := by
    simp only [not_or, not_not]
    exact ⟨hhead.scope, hhead.runId⟩
  have hexec : (Stmt.selectRun store.runRecord).exec sdk ((engine sdk).view tx) =
      .ok (some row, []) := by
    rw [view_eq hnil, ← hlookup, ledger_run_eq hkey]
    rfl
  rw [wp_bind]
  unfold EventStore.transactionRunRow
  rw [wp_bind, wp_get, wp_andThen_ok]
  apply htx.wp_read hc (hQ.andThen f) hexec
  intro rec s' hc' htx'
  simp only [wp_bind, wp_lift, raiseIf, if_neg hscope, wp_andThen_ok, wp_pure]
  exact hrest rec s' row hc' htx' hlookup

end InTx

/-! ### How a write ends -/

/-- A call `r` of the history gives the run a new list in place of the one the handle sees,
and no other call of the history changes anything. -/
structure Takes (env : Env F X) (store : EventStore) (L M : List (LogEvent F))
    (r : Except PyErr Unit) (h : Hist) (s s' : Database) : Prop where
  split : ∃ h₁ h₂ sb sb', h = h₁ ++ ⟨.commit, s, r, s'⟩ :: h₂ ∧ Quiet h₁ ∧ Quiet h₂ ∧
    ⟨.begin, sb, .ok (), sb'⟩ ∈ h₁ ∧ sb.tables.events store.address = L
  before : s.tables.events store.address = L
  move : Move env s.tables s'.tables store.address M
  logged : ∃ ks, s'.log = s.log ++ [ks]

lemma Takes.append {store : EventStore} {L M : List (LogEvent F)} {r : Except PyErr Unit}
    {h h' : Hist} {s s' : Database} (ht : Takes env store L M r h s s') (hq : Quiet h') :
    Takes env store L M r (h ++ h') s s' := by
  obtain ⟨h₁, h₂, sb, sb', rfl, hq₁, hq₂, hbegin⟩ := ht.split
  refine ⟨⟨h₁, h₂ ++ h', sb, sb', ?_, hq₁, hq₂.append hq, hbegin⟩, ht.before, ht.move, ht.logged⟩
  rw [List.append_assoc, List.cons_append]

/-- The ends of an operation whose handle sees `L`. It rejects some calls at once and refuses
others while `L` is current; `grows` says which lists it may give to the run. -/
inductive End (sdk : Sdk) (S : Setting env) {α : Type} (store : EventStore)
    (L : List (LogEvent F)) (rejects refuses : PyErr → Prop) (grows : List (LogEvent F) → Prop)
    (done : List (LogEvent F) → α → EventStore → Prop) (s : Database) :
    Hist → Except PyErr α × EventStore → Database → Prop
  | rejected {h e s'} (hq : Quiet h) (he : rejects e) (hd : S.drift s s') :
      End sdk S store L rejects refuses grows done s h (.error e, store) s'
  | refused {h e s' s₁} (hq : Quiet h) (he : refuses e) (hd₁ : S.drift s s₁)
      (hview : s₁.tables.events store.address = L) (hd : S.drift s s') :
      End sdk S store L rejects refuses grows done s h (.error e, store) s'
  | stale {h e s' s₁} (hq : Quiet h) (he : e.cls = .concurrentWriterError) (hd₁ : S.drift s s₁)
      (hview : s₁.tables.events store.address ≠ L) (hd : S.drift s s') :
      End sdk S store L rejects refuses grows done s h (.error e, store) s'
  | lost {h e s' rec} (hq : Quiet h) (hrec : rec ∈ h) (hlost : S.Lost sdk rec)
      (hd : S.drift s s') : End sdk S store L rejects refuses grows done s h (.error e, store) s'
  | conflict {h e s' s₁ s₂} (hq : Quiet h) (hd₁ : S.drift s s₁) (hd₂ : S.drift s₁ s₂)
      (hlog : s₁.log.length < s₂.log.length) (hd : S.drift s s') :
      End sdk S store L rejects refuses grows done s h (.error e, store) s'
  | unacked {h e s' s₁ s₂ e' M} (hla : S.lostAnswer) (hd₁ : S.drift s s₁) (hgrows : grows M)
      (htakes : Takes env store L M (.error e') h s₁ s₂) (hd₂ : S.drift s₂ s') :
      End sdk S store L rejects refuses grows done s h (.error e, store) s'
  | committed {h s₁ s' a store' M} (hd₁ : S.drift s s₁) (hgrows : grows M)
      (htakes : Takes env store L M (.ok ()) h s₁ s')
      (hlast : h.getLast? = some ⟨.commit, s₁, .ok (), s'⟩) (hdone : done M a store') :
      End sdk S store L rejects refuses grows done s h (.ok a, store') s'

def Ends (sdk : Sdk) (S : Setting env) {α : Type} (store : EventStore) (L : List (LogEvent F))
    (rejects refuses : PyErr → Prop) (grows : List (LogEvent F) → Prop)
    (done : List (LogEvent F) → α → EventStore → Prop) (s : Database) (h : Hist)
    (x : Except PyErr α × EventStore) (s' : Database) : Prop :=
  Consistent env s' ∧ End sdk S store L rejects refuses grows done s h x s'

/-- The handle after a commit that it has seen through. -/
def EventStore.observed (env : Env F X) (store : EventStore) (M : List (LogEvent F)) : EventStore :=
  { store with
    expectedNextSeq := M.length
    expectedHeadHash := headOf env store.scope store.runId M }

section guardedWrite

variable {store : EventStore} {L : List (LogEvent F)} {rejects refuses : PyErr → Prop}
  {grows : List (LogEvent F) → Prop} {h : Hist} {s s₀ : Database} {α : Type}
  {done : List (LogEvent F) → α → EventStore → Prop}

lemma ends_bears : Bears sdk S store s₀ (Ends sdk S store L rejects refuses grows done s₀) :=
  fun _ _ _ _ hc hd hq hrec hlost => ⟨hc, .lost hq hrec hlost hd⟩

/-- A guarded body, its `except` branch and the observation of the new head. -/
lemma wp_guardedWrite {body : Py EventStore (Int × Option String)} {passed : List ErrClass}
    (hkey : runKey env store.address = .ok store.runRecord)
    (hrejects : ∀ e, ¬ rejects e)
    (hrefuses : ∀ exc e, refuses exc → exc.cls ∉ passed → e.cls = .concurrentWriterError →
      refuses e)
    (hbody : S.Wp sdk (Ends sdk S store L rejects refuses grows (fun M a store' =>
      a = ((M.length : Int), headOf env store.scope store.runId M) ∧ store' = store) s₀) h
      (body store) s) :
    S.Wp sdk (Ends sdk S store L rejects refuses grows (fun M _ store' =>
      store' = store.observed env M) s₀) h
      (Method.tryElse body (EventStore.abandon env passed) EventStore.observe store) s := by
  rw [wp_tryElse]
  apply wp_mono hbody
  rintro h ⟨result, store'⟩ s ⟨hc, hend⟩
  cases hend with
  | rejected hq he hd => exact absurd he (hrejects _)
  | refused hq he hd₁ hview hd =>
    apply wp_abandon hc hkey
    intro hs e' s' hqs hd' hc' he'
    refine ⟨hc', .refused (hq.append hqs) ?_ hd₁ hview (S.drift_trans _ _ _ hd hd')⟩
    rcases he' with rfl | ⟨hpassed, he'⟩
    · exact he
    · exact hrefuses _ e' he hpassed he'
  | stale hq he hd₁ hview hd =>
    apply wp_abandon hc hkey
    intro hs e' s' hqs hd' hc' he'
    refine ⟨hc', .stale (hq.append hqs) ?_ hd₁ hview (S.drift_trans _ _ _ hd hd')⟩
    rcases he' with rfl | ⟨-, he'⟩
    · exact he
    · exact he'
  | lost hq hrec hlost hd =>
    apply wp_abandon hc hkey
    intro hs e' s' hqs hd' hc' _
    exact ⟨hc', .lost (hq.append hqs) (List.mem_append_left _ hrec) hlost
      (S.drift_trans _ _ _ hd hd')⟩
  | conflict hq hd₁ hd₂ hlog hd =>
    apply wp_abandon hc hkey
    intro hs e' s' hqs hd' hc' _
    exact ⟨hc', .conflict (hq.append hqs) hd₁ hd₂ hlog (S.drift_trans _ _ _ hd hd')⟩
  | unacked hla hd₁ hgrows htakes hd₂ =>
    apply wp_abandon hc hkey
    intro hs e' s' hqs hd' hc' _
    exact ⟨hc', .unacked hla hd₁ hgrows (htakes.append hqs) (S.drift_trans _ _ _ hd₂ hd')⟩
  | committed hd₁ hgrows htakes hlast hdone =>
    obtain ⟨rfl, rfl⟩ := hdone
    exact ⟨hc, .committed hd₁ hgrows htakes hlast rfl⟩

/-- A refusal in a transaction whose snapshot has the list that the handle sees. -/
lemma InTx.refused {tx : Tx Tables Write} {e : PyErr} (htx : InTx S s₀ h s tx)
    (hview : tx.snapshot.events store.address = L) (he : refuses e) :
    End sdk S store L rejects refuses grows done s₀ h (.error e, store) s := by
  obtain ⟨sb, sb', -, hd₀, -, hs, -⟩ := htx.begun
  exact .refused htx.quiet he hd₀ (hs ▸ hview) htx.drift

lemma InTx.stale {tx : Tx Tables Write} {e : PyErr} (htx : InTx S s₀ h s tx)
    (hview : tx.snapshot.events store.address ≠ L) (he : e.cls = .concurrentWriterError) :
    End sdk S store L rejects refuses grows done s₀ h (.error e, store) s := by
  obtain ⟨sb, sb', -, hd₀, -, hs, -⟩ := htx.begun
  exact .stale htx.quiet he hd₀ (hs ▸ hview) htx.drift

/-- What the staged writes do to whatever tables have the ledger of the snapshot. -/
structure Stages (env : Env F X) (sdk : Sdk) (g : String × String) (M : List (LogEvent F))
    (tx : Tx Tables Write) : Prop where
  guard : guardOf env g ∈ tx.writes.map Write.target
  proper : ∀ w ∈ tx.writes, w.Proper env
  move : ∀ t, Good env t → t.ledger env g = tx.snapshot.ledger env g →
    Move env t ((engine sdk).applyAll tx.writes t) g M

lemma Stages.writes_ne_nil {g : String × String} {M : List (LogEvent F)} {tx : Tx Tables Write}
    (hstages : Stages env sdk g M tx) : tx.writes ≠ [] := by
  intro hnil
  have hguard := hstages.guard
  rw [hnil] at hguard
  cases hguard

/-- At a commit that meets no conflict, the ledger of a written run record is the one of the
snapshot. -/
lemma InTx.current {g : String × String} {tx : Tx Tables Write} {s₁ : Database}
    (htx : InTx S s₀ h s tx) (hguard : guardOf env g ∈ tx.writes.map Write.target)
    (hrely : S.rely s s₁) (hc₁ : Consistent env s₁) (hconf : (engine sdk).conflicts s₁ tx = false) :
    s₁.tables.ledger env g = tx.snapshot.ledger env g := by
  have hown : s₁.tx S.client = some tx := (tx_of_rely hrely).trans htx.own
  have hok := hc₁.2 _ _ hown
  exact (hok.current (guarded env) (engine sdk) hconf hguard).symm

/-- The commit of a transaction that has read the list the handle sees. -/
lemma InTx.wp_commitEnds {tx : Tx Tables Write} {M : List (LogEvent F)} {a : α}
    (htx : InTx S s₀ h s tx) (hc : Consistent env s)
    (hview : tx.snapshot.events store.address = L) (hstages : Stages env sdk store.address M tx)
    (hgrows : grows M) (hdone : done M a store)
    (hallowed : ∀ t, Good env t → t.events store.address = L →
      Move env t ((engine sdk).applyAll tx.writes t) store.address M →
      S.allowed .commit tx.writes t) :
    S.Wp sdk (Ends sdk S store L rejects refuses grows done s₀) h
      ((do commit; return a : Py EventStore α) store) s := by
  have hcurrent : ∀ s₁, S.rely s s₁ → Consistent env s₁ →
      (engine sdk).conflicts s₁ tx = false → s₁.tables.events store.address = L ∧
        Move env s₁.tables ((engine sdk).applyAll tx.writes s₁.tables) store.address M := by
    intro s₁ hrely hc₁ hconf
    have hsame := htx.current hstages.guard hrely hc₁ hconf
    exact ⟨(events_congr hc₁.1 (hc.2 _ _ htx.own).1 hsame).trans hview,
      hstages.move _ hc₁.1 hsame⟩
  obtain ⟨sb, sb', hmem, hd₀, hdb, hsnap, hstart⟩ := htx.begun
  have htakes : ∀ s₁ s₂ r, S.rely s s₁ → Consistent env s₁ →
      (engine sdk).conflicts s₁ tx = false → (engine sdk).Commits tx.writes s₁ s₂ →
      Takes env store L M r (h ++ [⟨.commit, s₁, r, s₂⟩]) s₁ s₂ := by
    intro s₁ s₂ r hrely hc₁ hconf hcom
    obtain ⟨hbefore, hmove⟩ := hcurrent s₁ hrely hc₁ hconf
    refine ⟨⟨h, [], sb, sb', rfl, htx.quiet, quiet_nil, hmem, hsnap ▸ hview⟩, hbefore, ?_,
      _, hcom.2⟩
    rw [hcom.1]
    exact hmove
  rw [wp_bind]
  apply wp_commit hc htx.own hstages.writes_ne_nil
  · intro s₁ hrely hc₁ hconf
    obtain ⟨hbefore, hmove⟩ := hcurrent s₁ hrely hc₁ hconf
    exact ⟨lawful_of_move hc₁.1 hstages.proper hstages.guard hmove,
      hallowed _ hc₁.1 hbefore hmove⟩
  · intro s₁ s₂ hrely hc₁ hc₂ hconf hcom
    simp only [wp_done, wp_andThen_ok, wp_pure]
    exact ⟨hc₂, .committed (S.drift_trans _ _ _ htx.drift (S.drift_rely _ _ hrely)) hgrows
      (htakes s₁ s₂ _ hrely hc₁ hconf hcom) (by simp) hdone⟩
  · intro s₁ s₂ hrely hc₁ hc₂ hconf hsame
    simp only [wp_done, wp_andThen_error]
    have hlt := (engine sdk).start_lt_of_conflicts hconf
    have hd₁ := S.drift_trans _ _ _ hdb (S.drift_rely _ _ hrely)
    exact ⟨hc₂, .conflict (htx.quiet.concat hsame) hd₀ hd₁ (hstart ▸ hlt)
      (S.drift_trans _ _ _ (S.drift_trans _ _ _ hd₀ hd₁) (S.drift_quiet _ _ hsame))⟩
  · intro s₁ s₂ e hrely hc₁ hc₂ he hl heff
    simp only [wp_done, wp_andThen_error]
    have hd := S.drift_trans _ _ _ htx.drift (S.drift_rely _ _ hrely)
    rcases heff with hsame | ⟨hla, hconf, hcom⟩
    · exact ⟨hc₂, .lost (htx.quiet.concat hsame) (by simp) hl
        (S.drift_trans _ _ _ hd (S.drift_quiet _ _ hsame))⟩
    · exact ⟨hc₂, .unacked hla hd hgrows (htakes s₁ s₂ _ hrely hc₁ hconf hcom)
        (S.drift_quiet _ _ (same_refl _))⟩

/-- The head check: behind it, the snapshot has the list that the handle sees. -/
lemma InTx.wp_observedHead {rest : RunRow → Py EventStore α} {tx : Tx Tables Write}
    (htx : InTx S s₀ h s tx) (hsha : CollisionFree env) (hc : Consistent env s)
    (hself : store.Sees env L) (hnil : tx.writes = [])
    (hpresent : ∀ s', S.drift s₀ s' → (s'.tables.ledger env store.address).run ≠ none)
    (hrest : ∀ rec s' row, Consistent env s' → InTx S s₀ (h ++ [rec]) s' tx →
      tx.snapshot.events store.address = L → Ledger.HeadOf env store.address L row →
      (tx.snapshot.ledger env store.address).run = some row →
      S.Wp sdk (Ends sdk S store L rejects refuses grows done s₀) (h ++ [rec]) (rest row store)
        s') :
    S.Wp sdk (Ends sdk S store L rejects refuses grows done s₀) h
      ((do
        let head ← EventStore.transactionRunRow env
        EventStore.assertExpectedHead env head
        rest head : Py EventStore α) store) s := by
  have hrun : (tx.snapshot.ledger env store.address).run ≠ none := by
    obtain ⟨sb, sb', -, hd₀, -, hs, -⟩ := htx.begun
    rw [hs]
    exact hpresent sb hd₀
  have hgood : Good env tx.snapshot := (hc.2 _ _ htx.own).1
  apply htx.wp_runRow hc ends_bears hself.record hnil hrun
  intro rec s' row hc' htx' hlookup
  have hhead := (hgood.holds hlookup).2
  unfold EventStore.assertExpectedHead
  rw [wp_bind, wp_bind, wp_get, wp_andThen_ok, wp_lift, raiseIf]
  by_cases hexp : store.expects row
  · have hview := (expects_iff hsha hself hhead).mp hexp
    rw [if_neg (not_not.mpr hexp), wp_andThen_ok]
    exact hrest rec s' row hc' htx' hview (hview ▸ hhead) hlookup
  · have hview := fun heq => hexp ((expects_iff hsha hself hhead).mpr heq)
    rw [if_pos hexp, wp_andThen_error]
    exact ⟨hc', htx'.stale hview rfl⟩

end guardedWrite

/-! ### Append -/

/-- What an append gives to a run: the event in normal form at the end, under a new id. -/
def Appends (env : Env F X) (event : Event F X) (L M : List (LogEvent F)) : Prop :=
  ∃ e, Normal env event e ∧ e.id ∉ L.map (·.id) ∧ M = L ++ [e]

def AppendRejects (env : Env F X) (store : EventStore) (event : Event F X) (e : PyErr) : Prop :=
  eventToRecord env event = .error e ∨ store.closed = true ∧ e.cls = .closedStoreError

/-- Why an append to the list that the handle sees may raise. -/
def AppendRefuses (env : Env F X) (store : EventStore) (L : List (LogEvent F)) (id : String)
    (e : PyErr) : Prop :=
  (id ∈ L.map (·.id) ∧ e = EventStore.duplicateEvent env id store.runId) ∨
    ∃ e₀, eventKey env store.address id = .error e₀

variable (sdk) in
/-- Row and index of a new event are free. -/
lemma createEvent_exec {t : Tables} (hgood : Good env t) {g : String × String}
    {L : List (LogEvent F)} (hL : (t.ledger env g).Holds env g L) {e : LogEvent F} {record : RecordId .agEvent} (hkey : eventKey env g e.id = .ok record)
    (hnew : e.id ∉ L.map (·.id)) :
    (Stmt.createEvent record (appendedRow env g L e)).exec sdk t =
      .ok ((), [.event record.key (some (appendedRow env g L e))]) := by
  have hfree : t.event.lookup record.key = none := by
    rw [← ledger_event_eq hkey]
    by_contra hsome
    obtain ⟨row, hrow⟩ := Option.ne_none_iff_exists'.mp hsome
    obtain ⟨hmem, hid⟩ := (hL.event _ _).mp hrow
    apply hnew
    rw [← hid, ← eventIds_chainRows env g.1 g.2]
    exact List.mem_map_of_mem hmem
  have hclash : t.event.anyElse record.key (eventClash (appendedRow env g L e)) = false := by
    rw [Bool.eq_false_iff]
    intro hany
    obtain ⟨k, row, hk, hlookup, hrow⟩ := Records.anyElse_iff.mp hany
    simp only [eventClash, appendedRow, EventStore.eventRow, LogEvent.record, Bool.and_eq_true,
      Bool.or_eq_true] at hrow
    obtain ⟨⟨hs, hr⟩, hclash⟩ := hrow
    have hrowKey := hgood.keyed.event k row hlookup
    rw [of_decide_eq_true hs, of_decide_eq_true hr] at hrowKey
    have hevent : (t.ledger env g).event row.eventId = some row := by
      rw [ledger_event_eq hrowKey]
      exact hlookup
    rcases hclash with hid | hseq
    · rw [of_decide_eq_true hid] at hrowKey
      exact hk (congrArg RecordId.key (Except.ok.inj (hrowKey.symm.trans hkey)))
    · obtain ⟨hmem, -⟩ := (hL.event _ _).mp hevent
      obtain ⟨-, -, -, hlt, -⟩ := mem_rowsFrom hmem
      have hlast := of_decide_eq_true hseq
      omega
  change create sdk .agEvent "ag_event_scope_run_id" t.event record.key
    (eventClash (appendedRow env g L e)) _ = _
  unfold create
  rw [hfree, hclash]
  rfl

variable (sdk) in
lemma mergeHead_exec {t : Tables} {record : RecordId .agRun} {row : RunRow}
    (hrow : t.run.lookup record.key = some row) (n : Int) (hash : Option String) :
    (Stmt.mergeHead record n hash).exec sdk t =
      .ok ((), [.run record.key (some { row with nextSeq := n, headHash := hash })]) := by
  change Except.ok (update t.run record.key _) = _
  unfold update
  rw [hrow]

section append

variable {store : EventStore} {L : List (LogEvent F)} {h : Hist} {s s₀ : Database}
  {event : Event F X}

/-- The two staged writes of an append. -/
lemma append_stages (hsha : CollisionFree env) {tx : Tx Tables Write} {row : RunRow}
    {record : RecordId .agEvent} {e : LogEvent F} (hgood : Good env tx.snapshot)
    (hkey : runKey env store.address = .ok store.runRecord)
    (hrecord : eventKey env store.address e.id = .ok record)
    (hrun : (tx.snapshot.ledger env store.address).run = some row)
    (hview : tx.snapshot.events store.address = L) (hnew : e.id ∉ L.map (·.id))
    (hwrites : tx.writes = appendWrites env store.address record store.runRecord row L e) :
    Stages env sdk store.address (L ++ [e]) tx := by
  obtain ⟨hholds, hhead⟩ := hgood.holds hrun
  rw [hview] at hholds hhead
  constructor
  · rw [hwrites, guardOf_eq hkey]
    simp [appendWrites, Write.target]
  · rw [hwrites]
    exact append_proper hkey hrecord hhead
  · intro t _ hsame
    rw [hwrites]
    exact append_move hsha hkey hrecord (hsame ▸ hholds) hhead hnew

/-- The id is looked up in the snapshot. -/
lemma existing_iff {t : Tables} {g : String × String}
    (hL : (t.ledger env g).Holds env g L) (id : String) :
    ((t.ledger env g).event id).isSome = true ↔ id ∈ L.map (·.id) := by
  rw [← eventIds_chainRows env g.1 g.2, List.mem_map,
    Option.isSome_iff_exists]
  exact exists_congr fun row => hL.event id row

lemma wp_appendTransaction {rejects : PyErr → Prop} {e : LogEvent F} {tx : Tx Tables Write}
    (htx : InTx S s₀ h s tx) (hsha : CollisionFree env) (henc : EncodesJson env)
    (hdict : EncodesDict env) (hc : Consistent env s) (hself : store.Sees env L)
    (hnormal : Normal env event e) (hnil : tx.writes = [])
    (hpresent : ∀ s', S.drift s₀ s' → (s'.tables.ledger env store.address).run ≠ none)
    (hallowed : ∀ t ws M, Good env t → t.events store.address = L → Appends env event L M →
      Move env t ((engine sdk).applyAll ws t) store.address M → S.allowed .commit ws t) :
    S.Wp sdk (Ends sdk S store L rejects (AppendRefuses env store L event.id)
      (Appends env event L) (fun M a store' =>
        a = ((M.length : Int), headOf env store.scope store.runId M) ∧ store' = store) s₀) h
      (EventStore.appendTransaction env event e.record store) s := by
  unfold EventStore.appendTransaction
  rw [wp_bind, wp_get, wp_andThen_ok]
  apply htx.wp_observedHead hsha hc hself hnil hpresent
  intro rec₁ s₁ row hc₁ htx₁ hview hhead hrun
  have hgood : Good env tx.snapshot := (hc₁.2 _ _ htx₁.own).1
  have hholds := (hgood.holds hrun).1
  rw [hview] at hholds
  unfold EventStore.eventRecord
  rw [wp_bind, wp_bind, wp_get, wp_andThen_ok, wp_lift]
  change S.Wp sdk _ _ (Method.andThen _ (eventKey env store.address event.id, store)) s₁
  cases hrecord : eventKey env store.address event.id with
  | error e₀ =>
    rw [wp_andThen_error]
    exact ⟨hc₁, htx₁.refused hview (.inr ⟨e₀, hrecord⟩)⟩
  | ok record =>
    have hread : (Stmt.selectEvent record).exec sdk ((engine sdk).view tx) =
        .ok ((tx.snapshot.ledger env store.address).event event.id, []) := by
      rw [InTx.view_eq hnil, ledger_event_eq hrecord]
      rfl
    rw [wp_andThen_ok]
    apply htx₁.wp_read hc₁ ends_bears hread
    intro rec₂ s₂ hc₂ htx₂
    rw [wp_bind, wp_lift, raiseIf]
    by_cases hsome : ((tx.snapshot.ledger env store.address).event event.id).isSome = true
    · rw [if_pos hsome, wp_andThen_error]
      exact ⟨hc₂, htx₂.refused hview (.inl ⟨(existing_iff hholds _).mp hsome, rfl⟩)⟩
    · have hnew : e.id ∉ L.map (·.id) := by
        rw [← hnormal.id]
        exact fun hmem => hsome ((existing_iff hholds _).mpr hmem)
      have hkey : eventKey env store.address e.id = .ok record := hnormal.id ▸ hrecord
      have hcreate := createEvent_exec sdk hgood hholds hkey hnew
      rw [← InTx.view_eq hnil] at hcreate
      rw [if_neg hsome, wp_andThen_ok, wp_bind, wp_lift, hhead.nextSeq, hhead.headHash,
        eventHash_normal henc hdict hnormal, wp_andThen_ok]
      apply htx₂.wp_step hc₂ ends_bears hcreate
      intro rec₃ s₃ hc₃ htx₃
      have hrow : ((engine sdk).view { tx with writes := tx.writes ++
          [.event record.key (some (appendedRow env store.address L e))] }).run.lookup
            store.runRecord.key = some row := by
        unfold Engine.view
        rw [hnil, ← hrun, ledger_run_eq hself.record]
        rfl
      apply htx₃.wp_step hc₃ ends_bears (mergeHead_exec sdk hrow _ _)
      intro rec₄ s₄ hc₄ htx₄
      apply htx₄.wp_commitEnds hc₄ hview
      · exact append_stages hsha hgood hself.record hkey hrun hview hnew (by rw [hnil]; rfl)
      · exact ⟨e, hnormal, hnew, rfl⟩
      · refine ⟨?_, rfl⟩
        simp [EventStore.address]
      · intro t hgood' hview' hmove
        exact hallowed t _ _ hgood' hview' ⟨e, hnormal, hnew, rfl⟩ hmove

theorem wp_append (hsha : CollisionFree env) (henc : EncodesJson env) (hdict : EncodesDict env)
    (hc : Consistent env s) (hself : store.Sees env L)
    (hpresent : ∀ s', S.drift s s' → (s'.tables.ledger env store.address).run ≠ none)
    (hallowed : ∀ t ws M, Good env t → t.events store.address = L → Appends env event L M →
      Move env t ((engine sdk).applyAll ws t) store.address M → S.allowed .commit ws t) :
    S.Wp sdk (Ends sdk S store L (AppendRejects env store event)
      (AppendRefuses env store L event.id) (Appends env event L)
      (fun M _ store' => store' = store.observed env M) s) []
      (EventStore.append env event store) s := by
  have hrefl : S.drift s s := S.drift_quiet s s (same_refl s)
  unfold EventStore.append
  rw [wp_bind, wp_lift]
  cases hrecord : eventToRecord env event with
  | error e =>
    rw [wp_andThen_error]
    exact ⟨hc, .rejected quiet_nil (.inl hrecord) hrefl⟩
  | ok encoded =>
    obtain ⟨e, hnormal, rfl⟩ := eventToRecord_ok_iff.mp hrecord
    rw [wp_andThen_ok]
    apply wp_ensureOpen
    · intro e' hclosed he'
      exact ⟨hc, .rejected quiet_nil (.inr ⟨hclosed, he'⟩) hrefl⟩
    · intro hopen
      apply wp_beginTx hc quiet_nil hrefl
      · intro rec s₁ e hc₁ hq hd hlost
        exact ⟨hc₁, .lost hq (by simp) hlost hd⟩
      · intro rec s₁ tx hc₁ htx hnil
        apply wp_guardedWrite hself.record
        · rintro e' (he' | ⟨hclosed, -⟩)
          · rw [hrecord] at he'
            cases he'
          · rw [hopen] at hclosed
            cases hclosed
        · rintro exc e' (⟨hmem, rfl⟩ | hkey) hpassed he'
          · exact absurd (by simp [EventStore.duplicateEvent]) hpassed
          · exact .inr hkey
        · exact wp_appendTransaction htx hsha henc hdict hc₁ hself hnormal hnil hpresent hallowed

end append

/-! ### Truncation -/

/-- What a truncation gives to a run: the prefix that ends at the id. -/
def Truncates (id : String) (L M : List (LogEvent F)) : Prop :=
  ∃ pre e post, L = pre ++ e :: post ∧ e.id = id ∧ M = pre ++ [e]

def TruncateRejects (store : EventStore) (e : PyErr) : Prop :=
  store.closed = true ∧ e.cls = .closedStoreError

def TruncateRefuses (env : Env F X) (store : EventStore) (L : List (LogEvent F)) (id : String)
    (e : PyErr) : Prop :=
  (id ∉ L.map (·.id) ∧ e = EventStore.eventNotFound env id store.runId) ∨
    ∃ e₀, eventKey env store.address id = .error e₀

section truncate

variable {store : EventStore} {L : List (LogEvent F)} {h : Hist} {s s₀ : Database} {id : String}

/-- The rows that the deletion meets. -/
lemma mem_keysAfter {t : Tables} (hgood : Good env t) {g : String × String} {n : Int}
    {key : String} :
    (key ∈ t.event.keysWhere fun row => row.scope = g.1 && row.runId = g.2 && n < row.seq) ↔
      ∃ id r, eventKey env g id = .ok ⟨key⟩ ∧ (t.ledger env g).event id = some r ∧ n < r.seq := by
  rw [Records.mem_keysWhere]
  simp only [Bool.and_eq_true, decide_eq_true_eq]
  constructor
  · rintro ⟨r, hlookup, ⟨hs, hr⟩, hn⟩
    have hkey := hgood.keyed.event key r hlookup
    rw [hs, hr] at hkey
    exact ⟨r.eventId, r, hkey, by rw [ledger_event_eq hkey]; exact hlookup, hn⟩
  · rintro ⟨id, r, hkey, hevent, hn⟩
    rw [ledger_event_eq hkey] at hevent
    have hproper := hgood.keyed.event key r hevent
    rcases hgood.ledger g with habs | ⟨L, hL⟩
    · have hnone := habs.2 id
      rw [ledger_event_eq hkey, hevent] at hnone
      cases hnone
    · have hmem := ((hL.event id r).mp (by rw [ledger_event_eq hkey]; exact hevent)).1
      exact ⟨r, hevent, mem_chainRows_scope hmem, hn⟩

lemma truncate_stages (hsha : CollisionFree env) {tx : Tx Tables Write} {row : RunRow}
    {pre post : List (LogEvent F)} {e : LogEvent F} (hgood : Good env tx.snapshot)
    (hkey : runKey env store.address = .ok store.runRecord)
    (hrun : (tx.snapshot.ledger env store.address).run = some row)
    (hview : tx.snapshot.events store.address = pre ++ e :: post)
    (hwrites : tx.writes = truncateWrites (tx.snapshot.event.keysWhere fun row =>
      row.scope = store.scope && row.runId = store.runId && (pre.length : Int) < row.seq)
      store.runRecord row (appendedRow env store.address pre e)) :
    Stages env sdk store.address (pre ++ [e]) tx := by
  obtain ⟨hholds, hhead⟩ := hgood.holds hrun
  rw [hview] at hholds hhead
  constructor
  · rw [hwrites, guardOf_eq hkey]
    simp [truncateWrites, Write.target]
  · rw [hwrites]
    exact truncate_proper hkey hhead
  · intro t _ hsame
    rw [hwrites]
    apply truncate_move hsha hkey (hsame ▸ hholds) hhead
    intro key
    rw [hsame]
    exact mem_keysAfter (g := store.address) hgood

lemma wp_truncateTransaction {rejects : PyErr → Prop} {tx : Tx Tables Write}
    (htx : InTx S s₀ h s tx) (hsha : CollisionFree env) (hc : Consistent env s)
    (hself : store.Sees env L) (hnil : tx.writes = [])
    (hpresent : ∀ s', S.drift s₀ s' → (s'.tables.ledger env store.address).run ≠ none)
    (hallowed : ∀ t ws M, Good env t → t.events store.address = L → Truncates id L M →
      Move env t ((engine sdk).applyAll ws t) store.address M → S.allowed .commit ws t) :
    S.Wp sdk (Ends sdk S store L rejects (TruncateRefuses env store L id) (Truncates id L)
      (fun M a store' =>
        a = ((M.length : Int), headOf env store.scope store.runId M) ∧ store' = store) s₀) h
      (EventStore.truncateTransaction env id store) s := by
  unfold EventStore.truncateTransaction
  rw [wp_bind, wp_get, wp_andThen_ok]
  apply htx.wp_observedHead hsha hc hself hnil hpresent
  intro rec₁ s₁ row hc₁ htx₁ hview hhead hrun
  have hgood : Good env tx.snapshot := (hc₁.2 _ _ htx₁.own).1
  have hholds := (hgood.holds hrun).1
  rw [hview] at hholds
  unfold EventStore.eventRecord
  rw [wp_bind, wp_bind, wp_get, wp_andThen_ok, wp_lift]
  change S.Wp sdk _ _ (Method.andThen _ (eventKey env store.address id, store)) s₁
  cases hrecord : eventKey env store.address id with
  | error e₀ =>
    rw [wp_andThen_error]
    exact ⟨hc₁, htx₁.refused hview (.inr ⟨e₀, hrecord⟩)⟩
  | ok record =>
    have hread : (Stmt.selectEvent record).exec sdk ((engine sdk).view tx) =
        .ok ((tx.snapshot.ledger env store.address).event id, []) := by
      rw [InTx.view_eq hnil, ledger_event_eq hrecord]
      rfl
    rw [wp_andThen_ok]
    apply htx₁.wp_read hc₁ ends_bears hread
    intro rec₂ s₂ hc₂ htx₂
    cases hlookup : (tx.snapshot.ledger env store.address).event id with
    | none =>
      have habsent : id ∉ L.map (·.id) := by
        rw [← existing_iff hholds id, hlookup]
        exact Bool.false_ne_true
      exact ⟨hc₂, htx₂.refused hview (.inl ⟨habsent, rfl⟩)⟩
    | some cutoff =>
      obtain ⟨hmem, hid⟩ := (hholds.event id cutoff).mp hlookup
      obtain ⟨pre, e, post, rfl, hcutoff⟩ := mem_chainRows_seq hmem
      obtain rfl : cutoff = appendedRow env store.address pre e := hcutoff
      have hscope : ¬ ((appendedRow env store.address pre e).scope ≠ store.scope ∨
          (appendedRow env store.address pre e).runId ≠ store.runId) := by
        simp [appendedRow, EventStore.eventRow, EventStore.address]
      have hgrows : Truncates id (pre ++ e :: post) (pre ++ [e]) := ⟨pre, e, post, rfl, hid, rfl⟩
      unfold EventStore.assertRowScope
      rw [wp_bind, wp_bind, wp_get, wp_andThen_ok, wp_lift, raiseIf, if_neg hscope, wp_andThen_ok]
      have hdelete : (Stmt.deleteEventsAfter store.scope store.runId pre.length).exec sdk
          ((engine sdk).view tx) = .ok ((), (tx.snapshot.event.keysWhere fun row =>
            row.scope = store.scope && row.runId = store.runId &&
              (pre.length : Int) < row.seq).map (.event · none)) := by
        rw [InTx.view_eq hnil]
        rfl
      apply htx₂.wp_step hc₂ ends_bears hdelete
      intro rec₃ s₃ hc₃ htx₃
      have hrow : ((engine sdk).view { tx with writes := tx.writes ++
          (tx.snapshot.event.keysWhere fun row => row.scope = store.scope &&
            row.runId = store.runId && (pre.length : Int) < row.seq).map (.event · none) }).run.lookup
            store.runRecord.key = some row := by
        unfold Engine.view
        rw [hnil, List.nil_append, ← ledger_run_eq hself.record, ledger_applyAll, foldl_delete]
        exact hrun
      apply htx₃.wp_step hc₃ ends_bears (mergeHead_exec sdk hrow _ _)
      intro rec₄ s₄ hc₄ htx₄
      apply htx₄.wp_commitEnds hc₄ hview
      · exact truncate_stages hsha hgood hself.record hrun hview (by rw [hnil]; rfl)
      · exact hgrows
      · refine ⟨?_, rfl⟩
        simp [EventStore.address, appendedRow, EventStore.eventRow]
      · intro t hgood' hview' hmove
        exact hallowed t _ _ hgood' hview' hgrows hmove

theorem wp_truncateAfter (hsha : CollisionFree env) (hc : Consistent env s)
    (hself : store.Sees env L)
    (hpresent : ∀ s', S.drift s s' → (s'.tables.ledger env store.address).run ≠ none)
    (hallowed : ∀ t ws M, Good env t → t.events store.address = L → Truncates id L M →
      Move env t ((engine sdk).applyAll ws t) store.address M → S.allowed .commit ws t) :
    S.Wp sdk (Ends sdk S store L (TruncateRejects store) (TruncateRefuses env store L id)
      (Truncates id L) (fun M _ store' => store' = store.observed env M) s) []
      (EventStore.truncateAfter env id store) s := by
  have hrefl : S.drift s s := S.drift_quiet s s (same_refl s)
  unfold EventStore.truncateAfter
  apply wp_ensureOpen
  · intro e hclosed he
    exact ⟨hc, .rejected quiet_nil ⟨hclosed, he⟩ hrefl⟩
  · intro hopen
    apply wp_beginTx hc quiet_nil hrefl
    · intro rec s₁ e hc₁ hq hd hlost
      exact ⟨hc₁, .lost hq (by simp) hlost hd⟩
    · intro rec s₁ tx hc₁ htx hnil
      apply wp_guardedWrite hself.record
      · rintro e ⟨hclosed, -⟩
        rw [hopen] at hclosed
        cases hclosed
      · rintro exc e (⟨hmem, rfl⟩ | hkey) hpassed he
        · exact absurd (by simp [EventStore.eventNotFound]) hpassed
        · exact .inr hkey
      · exact wp_truncateTransaction htx hsha hc₁ hself hnil hpresent hallowed

end truncate

end ActiveGraphSurreal
