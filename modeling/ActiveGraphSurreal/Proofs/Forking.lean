import ActiveGraphSurreal.Proofs.Opening

/-!
# The prefix fork

The rows and the head of the parent are read outside the transaction. Inside it the head is
read again, so the snapshot has the same list, and writing the head once more makes the
commit conflict with every other writer of the parent.
-/

namespace ActiveGraphSurreal

open Library Setting

set_option linter.unusedSectionVars false

variable {F X : Type} [Json.ScalarText F] {env : Env F X} {sdk : Sdk} {S : Setting env}

/-- What the commit of a fork does: the child, without a run record so far, gets the prefix
of the parent's list, and the parent keeps its ledger. -/
structure Forks (env : Env F X) (g c : String × String) (id : String) (t t' : Tables) : Prop where
  absent : (t.ledger env c).Absent
  split : ∃ pre e post, (t.events g : List (LogEvent F)) = pre ++ e :: post ∧ e.id = id ∧
    Move env t t' c (pre ++ [e])
  parent : t'.ledger env g = t.ledger env g

/-! ### The rows of the child -/

section child

variable {s r : String} {L : List (LogEvent F)}

lemma chainRows_take (n : Nat) :
    (chainRows env s r L).take n = chainRows env s r (L.take n) := by
  by_cases hn : n ≤ L.length
  · have hsplit : chainRows env s r L = chainRows env s r (L.take n) ++
        rowsFrom env s r n (headOf env s r (L.take n)) (L.drop n) := by
      conv_lhs => rw [← List.take_append_drop n L]
      unfold chainRows
      rw [rowsFrom_append, List.length_take_of_le hn, Nat.zero_add]
      rfl
    have hlen : (chainRows env s r (L.take n)).length = n := by
      rw [length_chainRows, List.length_take_of_le hn]
    rw [hsplit, List.take_append_of_le_length (by omega), List.take_of_length_le (by omega)]
  · rw [List.take_of_length_le (by rw [length_chainRows]; omega),
      List.take_of_length_le (by omega)]

lemma prefixRows_chainRows (id : String) :
    EventStore.prefixRows id (chainRows env s r L) =
      (upTo L id).map fun n => chainRows env s r (L.take n) := by
  have hindex : ((chainRows env s r L).findIdx? fun row => row.eventId = id) =
      L.findIdx? fun e => e.id = id := by
    have hmap := congrArg (List.findIdx? fun i => decide (i = id))
      (eventIds_chainRows env s r L)
    rw [List.findIdx?_map, List.findIdx?_map] at hmap
    exact hmap
  unfold EventStore.prefixRows upTo
  rw [hindex]
  cases L.findIdx? (fun e => e.id = id) with
  | none => rfl
  | some i => simp [chainRows_take]

lemma upTo_eq_some {id : String} {n : Nat} (h : upTo L id = some n) :
    ∃ pre e post, L = pre ++ e :: post ∧ e.id = id ∧ L.take n = pre ++ [e] := by
  unfold upTo at h
  obtain ⟨i, hi, rfl⟩ := Option.map_eq_some_iff.mp h
  obtain ⟨hlt, hid, -⟩ := List.findIdx?_eq_some_iff_getElem.mp hi
  refine ⟨L.take i, L[i], L.drop (i + 1), ?_, by simpa using hid, ?_⟩
  · rw [List.getElem_cons_drop, List.take_append_drop]
  · rw [List.take_concat_get']

/-- The child of decoded events has the rows of the list they decode to. -/
lemma childEvents_plain (henc : EncodesJson env) {n : Nat} {prev head : Option String}
    {events : List (Event F X)} {es : List (LogEvent F)}
    {rows : List (RecordId .agEvent × EventRow)}
    (hes : List.Forall₂ (fun event e => ∃ j hj, event.payload = plain j ∧ e = withPayload event j hj)
      events es)
    (h : EventStore.childEvents env s r n prev events = .ok (rows, head)) :
    rows.map Prod.snd = rowsFrom env s r n prev es ∧
      (∀ x ∈ rows, eventKey env (s, r) x.2.eventId = .ok x.1) ∧
      head = headFrom (LogEvent.link env s r) n prev es := by
  induction hes generalizing n prev rows head with
  | nil =>
    obtain ⟨rfl, rfl⟩ := Prod.mk.inj (pure_eq_ok.mp h)
    exact ⟨rfl, by simp, rfl⟩
  | @cons event e events es hevent _ ih =>
    obtain ⟨j, hj, hpayload, rfl⟩ := hevent
    rw [EventStore.childEvents] at h
    obtain ⟨hash, hhash, h⟩ := bind_eq_ok.mp h
    obtain ⟨record, hrecord, h⟩ := bind_eq_ok.mp h
    obtain ⟨encoded, hencoded, h⟩ := bind_eq_ok.mp h
    obtain ⟨⟨rest, head'⟩, hrest, h⟩ := bind_eq_ok.mp h
    obtain ⟨rfl, rfl⟩ := Prod.mk.inj (pure_eq_ok.mp h)
    rw [eventHash_plain henc hj hpayload] at hhash
    obtain rfl := Except.ok.inj hhash
    have henc' : eventToRecord env event = .ok (withPayload event j hj).record :=
      eventToRecord_ok_iff.mpr ⟨_, normal_plain henc hj hpayload, rfl⟩
    obtain rfl := Except.ok.inj (hencoded.symm.trans henc')
    obtain ⟨hrows, hkeys, hhead⟩ := ih hrest
    refine ⟨?_, ?_, hhead⟩
    · rw [List.map_cons, hrows]
      rfl
    · intro x hx
      rcases List.mem_cons.mp hx with rfl | hx
      · exact hrecord
      · exact hkeys x hx

lemma childEvents_ok (henc : EncodesJson env) {n : Nat} {prev head : Option String}
    {es : List (LogEvent F)} {rows : List (RecordId .agEvent × EventRow)}
    (h : EventStore.childEvents env s r n prev (es.map (LogEvent.toEvent (X := X))) =
      .ok (rows, head)) :
    rows.map Prod.snd = rowsFrom env s r n prev es ∧
      (∀ x ∈ rows, eventKey env (s, r) x.2.eventId = .ok x.1) ∧
      head = headFrom (LogEvent.link env s r) n prev es := by
  refine childEvents_plain henc ?_ h
  rw [List.forall₂_map_left_iff, List.forall₂_same]
  exact fun e _ => ⟨e.payload, e.distinct, rfl, LogEvent.ext rfl rfl e.canonical.symm rfl rfl rfl rfl⟩

end child

/-! ### The transaction -/

section transaction

variable {store : EventStore} {c : String × String} {L M : List (LogEvent F)} {h : Hist}
  {s s₀ : Database}

/-- The handle is as before, whatever happened. -/
def Stays (env : Env F X) {α ℓ : Type} (l : ℓ) (_ : Hist) (x : Except PyErr α × ℓ)
    (s' : Database) : Prop := Consistent env s' ∧ x.2 = l

lemma exec_createEvent {t : Tables} {record : RecordId .agEvent} {content : EventRow} {r : Unit}
    {ws : List Write} (hexec : (Stmt.createEvent record content).exec sdk t = .ok (r, ws)) :
    ws = [.event record.key (some content)] := by
  change create sdk .agEvent "ag_event_scope_run_id" t.event record.key (eventClash content)
    (.event record.key (some content)) = _ at hexec
  unfold create at hexec
  split at hexec
  · cases hexec
  · split at hexec
    · cases hexec
    · exact (Prod.mk.inj (Except.ok.inj hexec)).2.symm

lemma InTx.wp_createEvents {Q : Hist → Except PyErr Unit × EventStore → Database → Prop}
    (rows : List (RecordId .agEvent × EventRow)) {tx : Tx Tables Write} (htx : InTx S s₀ h s tx)
    (hc : Consistent env s) (herror : ∀ h' s' e, Consistent env s' → Q h' (.error e, store) s')
    (hok : ∀ h' s', Consistent env s' → InTx S s₀ h' s' { tx with
        writes := tx.writes ++ rows.map fun row => .event row.1.key (some row.2) } →
      Q h' (.ok (), store) s') :
    S.Wp sdk Q h (EventStore.createEvents rows store) s := by
  induction rows generalizing h s tx with
  | nil =>
    apply hok h s hc
    rw [List.map_nil, List.append_nil]
    exact htx
  | cons row rows ih =>
    obtain ⟨record, content⟩ := row
    apply htx.wp_try hc herror
    intro rec s' r ws hc' hexec htx'
    rw [exec_createEvent hexec] at htx'
    apply ih htx' hc'
    intro h' s'' hc'' htx''
    apply hok h' s'' hc''
    rw [List.append_assoc] at htx''
    exact htx''

variable (sdk) in
/-- The writes of a fork, on tables with the ledgers that its snapshot had. -/
lemma forks_of_writes (hsha : CollisionFree env) {t t₀ : Tables} (hgood : Good env t)
    (hgood₀ : Good env t₀) {g : String × String} {pk ck : RecordId .agRun} {parent child : RunRow}
    {rows : List (RecordId .agEvent × EventRow)} {pre post : List (LogEvent F)} {e : LogEvent F}
    (hpk : runKey env g = .ok pk) (hck : runKey env c = .ok ck)
    (hparent : (t₀.ledger env g).run = some parent) (habsent : (t₀.ledger env c).run = none)
    (hview : t₀.events g = pre ++ e :: post) (hchild : Ledger.HeadOf env c (pre ++ [e]) child)
    (hrows : ChildRows env c (pre ++ [e]) rows) (hsame : t.ledger env g = t₀.ledger env g)
    (hsame' : t.ledger env c = t₀.ledger env c) :
    Forks env g c e.id t ((engine sdk).applyAll (forkWrites pk parent ck child rows) t) ∧
      (guarded env).Lawful (engine sdk) (forkWrites pk parent ck child rows) t := by
  have hne : g ≠ c := by
    rintro rfl
    rw [habsent] at hparent
    cases hparent
  have hparent' : (t.ledger env g).run = some parent := hsame ▸ hparent
  have habsent' : (t.ledger env c).Absent := hgood.absent (hsame' ▸ habsent)
  have hview' : t.events g = pre ++ e :: post := (events_congr hgood hgood₀ hsame).trans hview
  obtain ⟨hholds, hhead⟩ := hgood.holds hparent'
  have hids : ((pre ++ [e]).map (·.id)).Nodup := by
    have hids := hholds.ids
    rw [hview', show pre ++ e :: post = (pre ++ [e]) ++ post by simp, List.map_append] at hids
    exact (List.nodup_append.mp hids).1
  have hmove := fork_move sdk hsha hpk hck hparent' habsent' hchild hids hrows
  refine ⟨⟨habsent', ⟨pre, e, post, hview', rfl, hmove⟩, hmove.others g hne⟩, ?_⟩
  apply lawful_of_move hgood (fork_proper hpk hck hhead hchild hrows) _ hmove
  rw [guardOf_eq hck]
  simp [forkWrites, Write.target]

lemma InTx.wp_forkTransaction {tx : Tx Tables Write} {newRunId : String} {parentRow child : RunRow}
    {ck : RecordId .agRun} {rows : List (RecordId .agEvent × EventRow)}
    {pre post : List (LogEvent F)} {e : LogEvent F} (htx : InTx S s₀ h s tx)
    (hsha : CollisionFree env) (hc : Consistent env s)
    (hkey : runKey env store.address = .ok store.runRecord)
    (hck : runKey env (store.scope, newRunId) = .ok ck) (hnil : tx.writes = [])
    (hpresent : ∀ s', S.drift s₀ s' → (s'.tables.ledger env store.address).run ≠ none)
    (hparent : Ledger.HeadOf env store.address (pre ++ e :: post) parentRow)
    (hchild : Ledger.HeadOf env (store.scope, newRunId) (pre ++ [e]) child)
    (hrows : ChildRows env (store.scope, newRunId) (pre ++ [e]) rows)
    (hallowed : ∀ ws t, Good env t →
      Forks env store.address (store.scope, newRunId) e.id t ((engine sdk).applyAll ws t) →
      S.allowed .commit ws t) :
    S.Wp sdk (Stays env store) h (EventStore.forkTransaction env newRunId
      (chainRows env store.scope store.runId (pre ++ e :: post)) parentRow child ck rows store)
      s := by
  have hstays : Bears sdk S store s₀ (Stays env store : Hist → Except PyErr Unit × EventStore → Database → Prop) :=
    fun _ _ _ _ hc' _ _ _ _ => ⟨hc', rfl⟩
  have hrun : (tx.snapshot.ledger env store.address).run ≠ none := by
    obtain ⟨sb, sb', -, hd₀, -, hs, -⟩ := htx.begun
    rw [hs]
    exact hpresent sb hd₀
  have hgood : Good env tx.snapshot := (hc.2 _ _ htx.own).1
  unfold EventStore.forkTransaction
  rw [wp_bind, wp_get, wp_andThen_ok]
  apply htx.wp_runRow hc hstays hkey hnil hrun
  intro rec₁ s₁ row hc₁ htx₁ hlookup
  have hhead := (hgood.holds hlookup).2
  apply wp_guard
  · intro _
    exact ⟨hc₁, rfl⟩
  · intro hcurrent
    rw [not_or, not_not, not_not, hparent.headHash, hhead.headHash] at hcurrent
    have hview : tx.snapshot.events store.address = pre ++ e :: post :=
      headOf_inj hsha hcurrent.2
    have hread : (Stmt.selectRun ck).exec sdk ((engine sdk).view tx) =
        .ok ((tx.snapshot.ledger env (store.scope, newRunId)).run, []) := by
      rw [InTx.view_eq hnil]
      unfold Tables.ledger recordAt
      rw [hck]
      rfl
    apply htx₁.wp_read hc₁ hstays hread
    intro rec₂ s₂ hc₂ htx₂
    apply wp_guard
    · intro _
      exact ⟨hc₂, rfl⟩
    · intro hfree
      have habsent : (tx.snapshot.ledger env (store.scope, newRunId)).run = none := by
        simpa using hfree
      have hmerge : (Stmt.mergeHead store.runRecord parentRow.nextSeq parentRow.headHash).exec sdk
          ((engine sdk).view tx) = .ok ((), [.run store.runRecord.key (some row)]) := by
        have hrow : ((engine sdk).view tx).run.lookup store.runRecord.key = some row := by
          rw [InTx.view_eq hnil, ← hlookup, ledger_run_eq hkey]
        rw [mergeHead_exec sdk hrow, hparent.nextSeq, hparent.headHash, ← hview, ← hhead.nextSeq,
          ← hhead.headHash]
      apply htx₂.wp_step hc₂ hstays hmerge
      intro rec₃ s₃ hc₃ htx₃
      apply htx₃.wp_try hc₃ (fun h' s' e hc' => ⟨hc', rfl⟩)
      intro rec₄ s₄ r ws hc₄ hexec htx₄
      obtain ⟨-, rfl⟩ := exec_createRun hexec
      rw [wp_bind]
      apply htx₄.wp_createEvents rows hc₄
      · intro h' s' e hc'
        exact ⟨hc', rfl⟩
      · intro h₅ s₅ hc₅ htx₅
        rw [wp_andThen_ok]
        have hwrites : (tx.writes ++ [.run store.runRecord.key (some row)] ++
            [.run ck.key (some child)] ++ rows.map fun row => .event row.1.key (some row.2)) =
            forkWrites store.runRecord row ck child rows := by
          rw [hnil]
          rfl
        rw [hwrites] at htx₅
        have hguard : guardOf env store.address ∈
            (forkWrites store.runRecord row ck child rows).map Write.target := by
          rw [guardOf_eq hkey]
          simp [forkWrites, Write.target]
        have hguard' : guardOf env (store.scope, newRunId) ∈
            (forkWrites store.runRecord row ck child rows).map Write.target := by
          rw [guardOf_eq hck]
          simp [forkWrites, Write.target]
        apply wp_commit hc₅ htx₅.own
        · simp [forkWrites]
        · intro s₆ hrely hc₆ hconf
          obtain ⟨hforks, hlawful⟩ := forks_of_writes sdk hsha hc₆.1 hgood hkey hck hlookup
            habsent hview hchild hrows (htx₅.current hguard hrely hc₆ hconf)
            (htx₅.current hguard' hrely hc₆ hconf)
          exact ⟨hlawful, hallowed _ _ hc₆.1 hforks⟩
        · intro s₆ s₇ _ _ hc₇ _ _
          exact ⟨hc₇, rfl⟩
        · intro s₆ s₇ _ _ hc₇ _ _
          exact ⟨hc₇, rfl⟩
        · intro s₆ s₇ e _ _ hc₇ _ _ _
          exact ⟨hc₇, rfl⟩

lemma wp_destinationExists {α : Type} {f : Bool → Py EventStore α} (hc : Consistent env s)
    (newRunId : String)
    (hrest : ∀ h' s' taken, Consistent env s' → S.drift s s' →
      S.Wp sdk (Stays env store) h' (f taken store) s') :
    S.Wp sdk (Stays env store) h ((EventStore.destinationExists env newRunId >>= f) store) s := by
  unfold EventStore.destinationExists
  rw [wp_bind, wp_bind, wp_get, wp_andThen_ok, wp_bind, wp_lift]
  cases recordId env.sha256 .agRun [store.scope, newRunId] with
  | error e =>
    rw [wp_andThen_error]
    exact ⟨hc, rfl⟩
  | ok record =>
    rw [wp_andThen_ok, wp_bind]
    apply wp_read
    · intro t r ws hexec
      cases hexec
      rfl
    · exact hc
    · intro s₁ r hrely hc₁ hr
      rcases hr with rfl | ⟨-, e, -, rfl⟩
      · simp only [Stmt.exec, Except.map, wp_done, wp_andThen_ok, wp_pure]
        exact hrest _ s₁ _ hc₁ (S.drift_rely _ _ hrely)
      · simp only [wp_done, wp_andThen_error]
        exact ⟨hc₁, rfl⟩

lemma wp_abandonFork (hc : Consistent env s)
    (hkey : runKey env store.address = .ok store.runRecord) (newRunId : String) (exc : PyErr) :
    S.Wp sdk (Stays env store) h (EventStore.abandonFork env newRunId exc store) s := by
  unfold EventStore.abandonFork
  rw [wp_bind]
  apply wp_cancel hc
  intro s₁ r s₂ _ _ hc₂ _
  rw [wp_done, wp_andThen_ok]
  apply wp_guard
  · intro _
    exact ⟨hc₂, rfl⟩
  · intro _
    apply wp_destinationExists hc₂
    intro h₃ s₃ taken hc₃ _
    apply wp_guard
    · intro _
      exact ⟨hc₃, rfl⟩
    · intro _
      rw [wp_bind]
      apply wp_raiseIfConcurrent hc₃ hkey
      · intro hs s₄ _ _ hc₄
        exact ⟨hc₄, rfl⟩
      · intro hs s₄ e _ _ hc₄ _
        exact ⟨hc₄, rfl⟩

/-- Every commit of a fork is the fork of the list that the parent has then, or belongs to
the constructor of the child. -/
theorem wp_forkPrefix (hsha : CollisionFree env) (henc : EncodesJson env)
    (hc : Consistent env s) (hself : store.Sees env L) (newRunId id : String)
    (label : Option String) (now now' : String)
    (hpresent : ∀ s', S.drift s s' → (s'.tables.ledger env store.address).run ≠ none)
    (hforks : ∀ ws t, Good env t →
      Forks env store.address (store.scope, newRunId) id t ((engine sdk).applyAll ws t) →
      S.allowed .commit ws t)
    (hschema : ∀ st ws t, (∀ w ∈ ws, w.OfSchema) → S.allowed (.query st) ws t)
    (hcreates : ∀ st ws t, Good env t → Creates env sdk (store.scope, newRunId) ws t →
      S.allowed (.query st) ws t) :
    S.Wp sdk (Stays env store) []
      (EventStore.forkPrefix env newRunId id label now now' store) s := by
  unfold EventStore.forkPrefix
  rw [wp_bind, wp_get, wp_andThen_ok]
  apply wp_ensureOpen
  · intro e _ _
    exact ⟨hc, rfl⟩
  · intro _
    rw [wp_bind]
    apply wp_mono (wp_verifiedRowsAndRun hsha henc hc hself.record hpresent)
    rintro h₁ ⟨v, store₁⟩ s₁ ⟨hc₁, hd₁, hstore, hverdict⟩
    obtain rfl : store₁ = store := hstore
    cases v with
    | error e =>
      rw [wp_andThen_error]
      exact ⟨hc₁, rfl⟩
    | ok p =>
      cases hverdict with
      | @agreed h₁ row s' M hreads hd _ hgood hview hhead =>
        have hpresent₁ : ∀ s', S.drift s₁ s' → (s'.tables.ledger env store₁.address).run ≠ none :=
          fun s' hd => hpresent s' (S.drift_trans _ _ _ hd₁ hd)
        rw [wp_andThen_ok]
        simp only
        unfold EventStore.assertExpectedHead
        rw [wp_bind, wp_bind, wp_get, wp_andThen_ok, ← wp_bind]
        apply wp_guard
        · intro _
          exact ⟨hc₁, rfl⟩
        · intro _
          apply wp_guard
          · intro _
            exact ⟨hc₁, rfl⟩
          · intro _
            rw [prefixRows_chainRows]
            cases hupTo : upTo M id with
            | none => exact ⟨hc₁, rfl⟩
            | some n =>
              obtain ⟨pre, e, post, rfl, rfl, htake⟩ := upTo_eq_some hupTo
              simp only [Option.map_some]
              rw [htake]
              apply wp_destinationExists hc₁
              intro h₂ s₂ taken hc₂ hd₂
              have hpresent₂ : ∀ s', S.drift s₂ s' →
                  (s'.tables.ledger env store₁.address).run ≠ none :=
                fun s' hd => hpresent₁ s' (S.drift_trans _ _ _ hd₂ hd)
              apply wp_guard
              · intro _
                exact ⟨hc₂, rfl⟩
              · intro _
                rw [mapM_decode (decode_chainRows (X := X) (pre ++ [e])), wp_bind, wp_lift,
                  wp_andThen_ok, wp_bind, wp_lift]
                cases hck : recordId env.sha256 .agRun [store₁.scope, newRunId] with
                | error e₂ => exact ⟨hc₂, rfl⟩
                | ok ck =>
                  rw [wp_andThen_ok, wp_bind, wp_lift]
                  cases hchild : EventStore.childEvents env store₁.scope newRunId 0 none
                      ((pre ++ [e]).map (LogEvent.toEvent (X := X))) with
                  | error e₂ => exact ⟨hc₂, rfl⟩
                  | ok p =>
                    obtain ⟨rows, head⟩ := p
                    obtain ⟨hrows, hkeys, hhead'⟩ := childEvents_ok henc hchild
                    have hlen : rows.length = (pre ++ [e]).length := by
                      rw [← List.length_map (f := Prod.snd), hrows, length_rowsFrom]
                    have hrun : Ledger.HeadOf env (store₁.scope, newRunId) (pre ++ [e])
                        (store₁.childRun newRunId e.id label now row rows.length head) :=
                      ⟨rfl, rfl, congrArg Nat.cast hlen, hhead'⟩
                    rw [wp_andThen_ok]
                    apply Prog.Safe.history (h := []) (fun _ _ _ _ hx => hx)
                    apply wp_beginTx hc₂ quiet_nil (S.drift_quiet s₂ s₂ (same_refl _))
                    · intro rec s₃ e₃ hc₃ _ _ _
                      exact ⟨hc₃, rfl⟩
                    · intro rec s₃ tx hc₃ htx hnil
                      rw [wp_tryElse]
                      apply wp_mono (htx.wp_forkTransaction hsha hc₃ hself.record hck hnil hpresent₂
                        hhead hrun ⟨hrows, hkeys⟩ hforks)
                      rintro h₄ ⟨r₄, store₄⟩ s₄ ⟨hc₄, hstore₄⟩
                      obtain rfl : store₄ = store₁ := hstore₄
                      cases r₄ with
                      | error e₄ =>
                        rw [wp_branch_error]
                        exact wp_abandonFork hc₄ hself.record newRunId e₄
                      | ok u =>
                        rw [wp_branch_ok]
                        apply Prog.Safe.history (h := []) (fun _ _ _ _ hx => hx)
                        apply wp_mono (wp_new hsha henc hc₄ newRunId store₄.scope now' hschema
                          hcreates store₄)
                        rintro h₅ x s₅ ⟨hc₅, hx, -⟩
                        exact ⟨hc₅, hx⟩

end transaction

end ActiveGraphSurreal
