import ActiveGraphSurreal.Proofs.Forking
import ActiveGraphSurreal.Proofs.Installing
import ActiveGraphSurreal.Proofs.Tampering

/-!
# What a failed fork leaves behind

A fork that runs alone on arbitrary tables. Up to its commit it leaves the tables as they were.
The handle on the child is built after the commit, and when its constructor raises, the child
stays.
-/

namespace ActiveGraphSurreal

open Library

set_option linter.unusedSectionVars false

variable {F X : Type} [Json.ScalarText F] {env : Env F X} {sdk : Sdk} {i : Nat}
  {store : EventStore} {db : Database} {t : Tables}

/-! ### Reading the parent -/

variable (env) in
/-- The verification of the own run passes, with this row as its run record. -/
structure Verified (store : EventStore) (t : Tables) (row : RunRow) : Prop where
  opened : store.closed = false
  present : t.run.lookup store.runRecord.key = some row
  scope : row.scope = store.scope
  runId : row.runId = store.runId
  nextSeq : row.nextSeq = (t.eventRows store.scope store.runId).length
  headHash : EventStore.verifyRows env store.scope store.runId 0 none
    (t.eventRows store.scope store.runId) = .ok row.headHash

variable (sdk i) in
lemma alone_readRunRow_some {row : RunRow}
    (hrow : db.tables.run.lookup store.runRecord.key = some row) (hscope : row.scope = store.scope)
    (hrun : row.runId = store.runId) :
    alone sdk i EventStore.readRunRow store db = ((.ok (some row), store), db) := by
  have hread : alone sdk i (query (.selectRun store.runRecord)) store db =
      ((.ok (some row), store), db) := by
    rw [← hrow]
    exact alone_read sdk i store db rfl
  unfold EventStore.readRunRow
  rw [alone_bind, alone_get, aloneThen_ok, alone_bind, hread, aloneThen_ok, alone_bind,
    alone_lift, raiseIf, if_neg (by simp [hscope, hrun]), aloneThen_ok, alone_pure]

variable (env sdk i db store) in
lemma alone_verifiedRowsAndRun : ∃ x,
    alone sdk i (EventStore.verifiedRowsAndRun env) store db = ((x, store), db) ∧
      ∀ rows row, x = .ok (rows, row) ↔
        rows = db.tables.eventRows store.scope store.runId ∧ Verified env store db.tables row := by
  have hread : alone sdk i (query (.selectEvents store.scope store.runId)) store db =
      ((.ok (db.tables.eventRows store.scope store.runId), store), db) :=
    alone_read sdk i store db rfl
  unfold EventStore.verifiedRowsAndRun EventStore.ensureOpen
  rw [alone_bind, alone_get, aloneThen_ok, alone_bind, alone_bind, alone_get, aloneThen_ok,
    alone_lift]
  by_cases hclosed : store.closed = true
  · rw [raiseIf, if_pos hclosed, aloneThen_error]
    refine ⟨_, rfl, fun rows row => ⟨fun h => (by cases h), ?_⟩⟩
    rintro ⟨-, h⟩
    rw [h.opened] at hclosed
    cases hclosed
  · rw [raiseIf, if_neg hclosed, aloneThen_ok, alone_bind, hread, aloneThen_ok, alone_bind]
    obtain ⟨result, hrun, hresult⟩ := alone_readRunRow sdk i store db
    rw [hrun]
    cases result with
    | error e =>
      rw [aloneThen_error]
      refine ⟨_, rfl, fun rows row => ⟨fun h => (by cases h), ?_⟩⟩
      rintro ⟨-, h⟩
      rw [alone_readRunRow_some sdk i h.present h.scope h.runId] at hrun
      cases hrun
    | ok run =>
      rw [aloneThen_ok, alone_lift]
      refine ⟨_, rfl, fun rows row => ?_⟩
      rw [verify_ok_iff]
      constructor
      · rintro ⟨rfl, rfl, hnext, hhead⟩
        obtain ⟨hlookup, haddress⟩ := hresult _ rfl
        obtain ⟨hscope, hid⟩ := haddress row (Option.mem_some_self row)
        exact ⟨rfl, (Bool.not_eq_true _).mp hclosed, hlookup.symm, hscope, hid, hnext, hhead⟩
      · rintro ⟨rfl, h⟩
        refine ⟨?_, rfl, h.nextSeq, h.headHash⟩
        rw [(hresult run rfl).1, h.present]

/-! ### The rows of the child -/

/-- The rows can be created one after the other. -/
def Creatable (events : Records EventRow) : List (RecordId .agEvent × EventRow) → Prop
  | [] => True
  | (record, content) :: rest =>
    events.lookup record.key = none ∧ events.anyElse record.key (eventClash content) = false ∧
      Creatable (events.write record.key (some content)) rest

def eventWrites (rows : List (RecordId .agEvent × EventRow)) : List Write :=
  rows.map fun row => .event row.1.key (some row.2)

lemma exec_createEvent_iff {record : RecordId .agEvent} {content : EventRow} :
    (Stmt.createEvent record content).exec sdk t =
        .ok ((), [.event record.key (some content)]) ↔
      t.event.lookup record.key = none ∧
        t.event.anyElse record.key (eventClash content) = false := by
  change create sdk .agEvent "ag_event_scope_run_id" t.event record.key (eventClash content)
    (.event record.key (some content)) = _ ↔ _
  unfold create
  cases hlookup : t.event.lookup record.key with
  | some row => simp
  | none =>
    cases hclash : t.event.anyElse record.key (eventClash content) with
    | true => simp
    | false => simp

variable (sdk i db) in
lemma alone_createEvents {ℓ : Type} (l : ℓ) (ws : List Write)
    (rows : List (RecordId .agEvent × EventRow)) :
    (Creatable ((engine sdk).applyAll ws db.tables).event rows ∧
      alone sdk i (EventStore.createEvents rows) l (during i db ws) =
        ((.ok (), l), during i db (ws ++ eventWrites rows))) ∨
    (¬ Creatable ((engine sdk).applyAll ws db.tables).event rows ∧
      ∃ e ws', alone sdk i (EventStore.createEvents rows) l (during i db ws) =
        ((.error e, l), during i db ws')) := by
  induction rows generalizing ws with
  | nil =>
    refine .inl ⟨trivial, ?_⟩
    rw [eventWrites, List.map_nil, List.append_nil]
    rfl
  | cons row rows ih =>
    obtain ⟨record, content⟩ := row
    unfold EventStore.createEvents
    cases hexec : (Stmt.createEvent record content).exec sdk
        ((engine sdk).applyAll ws db.tables) with
    | error e =>
      refine .inr ⟨?_, e, ws, ?_⟩
      · rintro ⟨hfree, hclash, -⟩
        rw [exec_createEvent_iff.mpr ⟨hfree, hclash⟩] at hexec
        cases hexec
      · rw [alone_bind, alone_txQuery_error sdk i l hexec, aloneThen_error]
    | ok p =>
      obtain ⟨r, ws₁⟩ := p
      obtain rfl := exec_createEvent hexec
      obtain ⟨hfree, hclash⟩ := exec_createEvent_iff.mp hexec
      have hafter : ((engine sdk).applyAll (ws ++ [.event record.key (some content)])
          db.tables).event = ((engine sdk).applyAll ws db.tables).event.write record.key
            (some content) := by
        rw [Engine.applyAll_append]
        rfl
      have hrest := ih (ws ++ [.event record.key (some content)])
      rw [hafter] at hrest
      rw [alone_bind, alone_txQuery sdk i l hexec, aloneThen_ok]
      rcases hrest with ⟨hrows, hrun⟩ | ⟨hrows, e, ws', hrun⟩
      · refine .inl ⟨⟨hfree, hclash, hrows⟩, ?_⟩
        rw [hrun, List.append_assoc]
        rfl
      · exact .inr ⟨fun h => hrows h.2.2, e, ws', hrun⟩

variable (sdk) in
/-- Writing event records leaves the other tables alone. -/
lemma applyAll_eventWrites (rows : List (RecordId .agEvent × EventRow)) (t : Tables) :
    ∃ event, (engine sdk).applyAll (eventWrites rows) t = { t with event } ∧
      (Creatable t.event rows → event.rows = (rows.map Prod.snd).reverse ++ t.event.rows) := by
  induction rows generalizing t with
  | nil => exact ⟨t.event, rfl, fun _ => rfl⟩
  | cons row rows ih =>
    obtain ⟨record, content⟩ := row
    obtain ⟨event, htables, hrows⟩ :=
      ih { t with event := t.event.write record.key (some content) }
    refine ⟨event, htables, ?_⟩
    rintro ⟨hfree, -, hrest⟩
    rw [hrows hrest, Records.rows_write hfree, List.map_cons, List.reverse_cons, List.append_assoc]
    rfl

/-! ### The transaction -/

/-- What the fork has of its child when its transaction begins. -/
structure Prefork (env : Env F X) (store : EventStore) (newRunId id : String) (t : Tables)
    (parent : RunRow) (ck : RecordId .agRun) (rows : List (RecordId .agEvent × EventRow))
    (head : Option String) : Prop where
  verified : Verified env store t parent
  observed : store.expects parent
  uncompacted : (t.eventRows store.scope store.runId).head?.any
    (fun row => row.eventType = "runtime.snapshot") = false
  key : runKey env (store.scope, newRunId) = .ok ck
  free : t.run.lookup ck.key = none
  rows : ∃ kept events,
    EventStore.prefixRows id (t.eventRows store.scope store.runId) = some kept ∧
      kept.mapM (fun row => recordToEvent env row.toEventRecord) = .ok events ∧
      EventStore.childEvents env store.scope newRunId 0 none events = .ok (rows, head)

lemma Prefork.unique {newRunId id : String} {parent parent' : RunRow} {ck ck' : RecordId .agRun}
    {rows rows' : List (RecordId .agEvent × EventRow)} {head head' : Option String}
    (h : Prefork env store newRunId id t parent ck rows head)
    (h' : Prefork env store newRunId id t parent' ck' rows' head') : ck = ck' ∧ rows = rows' := by
  refine ⟨Except.ok.inj (h.key.symm.trans h'.key), ?_⟩
  obtain ⟨kept, events, hkept, hevents, hchild⟩ := h.rows
  obtain ⟨kept', events', hkept', hevents', hchild'⟩ := h'.rows
  obtain rfl := Option.some.inj (hkept.symm.trans hkept')
  obtain rfl := Except.ok.inj (hevents.symm.trans hevents')
  exact (Prod.mk.inj (Except.ok.inj (hchild.symm.trans hchild'))).1

/-- The tables have room for the child. -/
structure Room (scope newRunId : String) (t : Tables) (ck : RecordId .agRun)
    (rows : List (RecordId .agEvent × EventRow)) : Prop where
  run : t.run.anyElse ck.key (fun row => row.scope = scope && row.runId = newRunId) = false
  rows : Creatable t.event rows

section transaction

variable {newRunId id : String} {parent child : RunRow} {ck : RecordId .agRun}
  {rows : List (RecordId .agEvent × EventRow)} {head : Option String}

lemma exec_createRun_iff {record : RecordId .agRun} :
    (Stmt.createRun record child).exec sdk t = .ok ((), [.run record.key (some child)]) ↔
      t.run.lookup record.key = none ∧ t.run.anyElse record.key (runClash child) = false := by
  change create sdk .agRun "ag_run_scope_run" t.run record.key (runClash child)
    (.run record.key (some child)) = _ ↔ _
  unfold create
  cases hlookup : t.run.lookup record.key with
  | some row => simp
  | none =>
    cases hclash : t.run.anyElse record.key (runClash child) with
    | true => simp
    | false => simp

variable (sdk i) in
/-- The writes of the child, after the one to its parent. -/
lemma alone_createChild (hfork : Prefork env store newRunId id db.tables parent ck rows head)
    (hchild : child.scope = store.scope ∧ child.runId = newRunId) :
    (Room store.scope newRunId db.tables ck rows ∧
      alone sdk i (do
          txQuery (.createRun ck child)
          EventStore.createEvents rows
          commit) store (during i db [.run store.runRecord.key (some parent)]) =
        ((.ok (), store), (engine sdk).commit (forkWrites store.runRecord parent ck child rows)
          (withdrawn i db))) ∨
    (¬ Room store.scope newRunId db.tables ck rows ∧
      ∃ e ws, alone sdk i (do
          txQuery (.createRun ck child)
          EventStore.createEvents rows
          commit) store (during i db [.run store.runRecord.key (some parent)]) =
        ((.error e, store), during i db ws)) := by
  let touched := (engine sdk).applyAll [.run store.runRecord.key (some parent)] db.tables
  have hclash : touched.run.anyElse ck.key (runClash child) =
      db.tables.run.anyElse ck.key (fun row => row.scope = store.scope && row.runId = newRunId) := by
    unfold runClash
    rw [hchild.1, hchild.2]
    exact Records.anyElse_rewrite hfork.verified.present _
  have hne : ck.key ≠ store.runRecord.key := by
    intro h
    have hfree := hfork.free
    rw [h, hfork.verified.present] at hfree
    cases hfree
  have hfree : touched.run.lookup ck.key = none := by
    change (db.tables.run.write store.runRecord.key (some parent)).lookup ck.key = none
    rw [Records.lookup_write, if_neg hne, hfork.free]
  rw [alone_bind]
  cases hexec : (Stmt.createRun ck child).exec sdk touched with
  | error e =>
    refine .inr ⟨?_, e, [.run store.runRecord.key (some parent)], ?_⟩
    · rintro ⟨hrun, -⟩
      rw [exec_createRun_iff.mpr ⟨hfree, hclash.trans hrun⟩] at hexec
      cases hexec
    · rw [alone_txQuery_error sdk i store hexec, aloneThen_error]
  | ok p =>
    obtain ⟨r, ws⟩ := p
    obtain ⟨-, rfl⟩ := exec_createRun hexec
    have hroom := (exec_createRun_iff.mp hexec).2
    rw [hclash] at hroom
    rw [alone_txQuery sdk i store hexec, aloneThen_ok, alone_bind]
    rcases alone_createEvents sdk i db store ([.run store.runRecord.key (some parent)] ++
      [.run ck.key (some child)]) rows with ⟨hrows, hrun⟩ | ⟨hrows, e, ws, hrun⟩
    · refine .inl ⟨⟨hroom, hrows⟩, ?_⟩
      rw [hrun, aloneThen_ok, alone_commit]
      rfl
    · refine .inr ⟨fun h => hrows h.rows, e, ws, ?_⟩
      rw [hrun, aloneThen_error]

variable (sdk i) in
/-- Inside the transaction the parent is as it was read, so that only the room for the child can
be missing. -/
lemma alone_forkTransaction (hfork : Prefork env store newRunId id db.tables parent ck rows head)
    (hchild : child.scope = store.scope ∧ child.runId = newRunId) :
    (Room store.scope newRunId db.tables ck rows ∧
      alone sdk i (EventStore.forkTransaction env newRunId
          (db.tables.eventRows store.scope store.runId) parent child ck rows) store
          (during i db []) =
        ((.ok (), store), (engine sdk).commit (forkWrites store.runRecord parent ck child rows)
          (withdrawn i db))) ∨
    (¬ Room store.scope newRunId db.tables ck rows ∧
      ∃ e ws, alone sdk i (EventStore.forkTransaction env newRunId
          (db.tables.eventRows store.scope store.runId) parent child ck rows) store
          (during i db []) = ((.error e, store), during i db ws)) := by
  have hparent := hfork.verified.present
  have hselect : (Stmt.selectRun store.runRecord).exec sdk
      ((engine sdk).applyAll [] db.tables) = .ok (some parent, []) := by
    rw [← hparent]
    rfl
  have hrunRow : alone sdk i (EventStore.transactionRunRow env) store (during i db []) =
      ((.ok parent, store), during i db []) := by
    unfold EventStore.transactionRunRow
    rw [alone_bind, alone_get, aloneThen_ok, alone_bind, alone_txQuery sdk i store hselect,
      aloneThen_ok]
    dsimp only
    rw [alone_bind, alone_lift, raiseIf,
      if_neg (by simp [hfork.verified.scope, hfork.verified.runId]), aloneThen_ok, alone_pure]
    rfl
  have hfree : (Stmt.selectRun ck).exec sdk ((engine sdk).applyAll [] db.tables) =
      .ok (none, []) := by
    rw [← hfork.free]
    rfl
  have hmerge : (Stmt.mergeHead store.runRecord parent.nextSeq parent.headHash).exec sdk
      ((engine sdk).applyAll [] db.tables) =
        .ok ((), [.run store.runRecord.key (some parent)]) :=
    mergeHead_exec sdk hparent parent.nextSeq parent.headHash
  unfold EventStore.forkTransaction
  rw [alone_bind, alone_get, aloneThen_ok, alone_bind, hrunRow, aloneThen_ok, alone_bind,
    alone_lift, raiseIf, if_neg (by simp [hfork.verified.nextSeq]), aloneThen_ok, alone_bind,
    alone_txQuery sdk i store hfree, aloneThen_ok, alone_bind, alone_lift, raiseIf,
    if_neg (by simp), aloneThen_ok, alone_bind, List.append_nil,
    alone_txQuery sdk i store hmerge, aloneThen_ok]
  exact alone_createChild sdk i hfork hchild

end transaction

/-! ### The whole call -/

variable (env sdk i store) in
lemma alone_destinationExists (newRunId : String) (db : Database) :
    alone sdk i (EventStore.destinationExists env newRunId) store db =
      (((runKey env (store.scope, newRunId)).map fun record =>
        (db.tables.run.lookup record.key).isSome, store), db) := by
  unfold EventStore.destinationExists
  rw [alone_bind, alone_get, aloneThen_ok, alone_bind, alone_lift]
  change aloneThen sdk i _ ((runKey env (store.scope, newRunId), store), db) = _
  cases runKey env (store.scope, newRunId) with
  | error e => rfl
  | ok record =>
    have hread : alone sdk i (query (.selectRun record)) store db =
        ((.ok (db.tables.run.lookup record.key), store), db) := alone_read sdk i store db rfl
    rw [aloneThen_ok, alone_bind, hread, aloneThen_ok, alone_pure]
    rfl

variable (env sdk i store db) in
lemma alone_raiseIfConcurrent (exc : PyErr) : ∃ result,
    alone sdk i (EventStore.raiseIfConcurrent env exc) store db = ((result, store), db) := by
  obtain ⟨run, hrun, -⟩ := alone_readRunRow sdk i store db
  unfold EventStore.raiseIfConcurrent
  rw [alone_bind, alone_get, aloneThen_ok, alone_bind, alone_tryCatch, hrun]
  cases run with
  | error e =>
    rw [aloneElse_error, alone_pure, aloneThen_ok, alone_lift]
    exact ⟨_, rfl⟩
  | ok row =>
    rw [aloneElse_ok, alone_pure, aloneThen_ok, alone_lift]
    exact ⟨_, rfl⟩

variable (env sdk i store db) in
/-- Whatever went wrong, the transaction is withdrawn and the call raises. -/
lemma alone_abandonFork (newRunId : String) (exc : PyErr) (ws : List Write) : ∃ e,
    alone sdk i (EventStore.abandonFork env newRunId exc) store (during i db ws) =
      ((.error e, store), withdrawn i db) := by
  unfold EventStore.abandonFork
  rw [alone_bind, alone_cancelSafely, aloneThen_ok, alone_bind, alone_lift]
  by_cases hpassed : exc.cls = .concurrentWriterError ∨ exc.cls = .runAlreadyExistsError
  · rw [raiseIf, if_pos hpassed, aloneThen_error]
    exact ⟨exc, rfl⟩
  rw [raiseIf, if_neg hpassed, aloneThen_ok, alone_bind, alone_destinationExists]
  cases (runKey env (store.scope, newRunId)).map fun record =>
      ((withdrawn i db).tables.run.lookup record.key).isSome with
  | error e => exact ⟨e, rfl⟩
  | ok taken =>
    rw [aloneThen_ok, alone_bind, alone_lift]
    cases raiseIf taken (EventStore.runExistsError env newRunId) with
    | error e => exact ⟨e, rfl⟩
    | ok u =>
      obtain ⟨result, hrun⟩ := alone_raiseIfConcurrent env sdk i store (withdrawn i db) exc
      rw [aloneThen_ok, alone_bind, hrun]
      cases result with
      | error e => exact ⟨e, rfl⟩
      | ok u => exact ⟨exc, rfl⟩

variable (env) in
/-- Every check of a fork passes on these tables, and so does every write of its transaction. -/
def Forkable (store : EventStore) (newRunId id : String) (t : Tables) : Prop :=
  ∃ parent ck rows head, Prefork env store newRunId id t parent ck rows head ∧
    Room store.scope newRunId t ck rows

/-- The database after the commit of a fork. -/
def committedFork (sdk : Sdk) (i : Nat) (store : EventStore) (newRunId id : String)
    (label : Option String) (now : String) (parent : RunRow) (ck : RecordId .agRun)
    (rows : List (RecordId .agEvent × EventRow)) (head : Option String) (db : Database) :
    Database :=
  (engine sdk).commit (forkWrites store.runRecord parent ck
    (store.childRun newRunId id label now parent rows.length head) rows) (withdrawn i db)

variable (sdk i) in
/-- The part of a fork after the checks of its parent. -/
lemma alone_forkRows {newRunId id : String} (label : Option String) (now now' : String)
    {parent : RunRow} (hverified : Verified env store db.tables parent)
    (hexpects : store.expects parent)
    (hclean : (db.tables.eventRows store.scope store.runId).head?.any
      (fun row => row.eventType = "runtime.snapshot") = false) :
    let rest : Py EventStore EventStore :=
      match EventStore.prefixRows id (db.tables.eventRows store.scope store.runId) with
      | none => throw ⟨.forkPointNotFoundError,
          "fork point " ++ env.repr id ++ " is absent from run " ++ env.repr store.runId⟩
      | some kept => do
        let taken ← EventStore.destinationExists env newRunId
        lift (raiseIf taken (EventStore.runExistsError env newRunId))
        let events ← lift (kept.mapM fun row => recordToEvent env row.toEventRecord)
        let childRecord ← lift (recordId env.sha256 .agRun [store.scope, newRunId])
        let (rowsOfChild, headHash) ←
          lift (EventStore.childEvents env store.scope newRunId 0 none events)
        beginTransaction
        Method.tryElse (EventStore.forkTransaction env newRunId
            (db.tables.eventRows store.scope store.runId) parent
            (store.childRun newRunId id label now parent rowsOfChild.length headHash) childRecord
            rowsOfChild)
          (EventStore.abandonFork env newRunId)
          fun _ => EventStore.new env newRunId store.scope now'
    (¬ Forkable env store newRunId id db.tables ∧ ∃ e db',
      alone sdk i rest store db = ((.error e, store), db') ∧ db'.tables = db.tables) ∨
    ∃ ck rows head, Prefork env store newRunId id db.tables parent ck rows head ∧
      Room store.scope newRunId db.tables ck rows ∧
      alone sdk i rest store db = alone sdk i (EventStore.new env newRunId store.scope now') store
        (committedFork sdk i store newRunId id label now parent ck rows head db) := by
  dsimp only
  cases hkept : EventStore.prefixRows id (db.tables.eventRows store.scope store.runId) with
  | none =>
    refine .inl ⟨?_, _, db, rfl, rfl⟩
    rintro ⟨_, _, _, _, h, -⟩
    obtain ⟨kept', events, hkept', -⟩ := h.rows
    rw [hkept] at hkept'
    cases hkept'
  | some kept =>
    dsimp only
    rw [alone_bind, alone_destinationExists]
    cases hkey : runKey env (store.scope, newRunId) with
    | error e =>
      refine .inl ⟨?_, e, db, rfl, rfl⟩
      rintro ⟨_, _, _, _, h, -⟩
      have hkey' := h.key
      rw [hkey] at hkey'
      cases hkey'
    | ok ck =>
      simp only [Except.map]
      rw [aloneThen_ok, alone_bind]
      by_cases htaken : (db.tables.run.lookup ck.key).isSome = true
      · rw [alone_raises sdk i htaken, aloneThen_error]
        refine .inl ⟨?_, _, db, rfl, rfl⟩
        rintro ⟨_, _, _, _, h, -⟩
        have hkey' := h.key
        rw [hkey] at hkey'
        rw [Except.ok.inj hkey', h.free] at htaken
        cases htaken
      rw [alone_passes sdk i htaken, aloneThen_ok, alone_bind, alone_lift]
      cases hevents : kept.mapM fun row => recordToEvent env row.toEventRecord with
      | error e =>
        refine .inl ⟨?_, e, db, rfl, rfl⟩
        rintro ⟨_, _, _, _, h, -⟩
        obtain ⟨kept', events, hkept', hevents', -⟩ := h.rows
        rw [hkept] at hkept'
        rw [← Option.some.inj hkept', hevents] at hevents'
        cases hevents'
      | ok events =>
        have hrecord : recordId env.sha256 .agRun [store.scope, newRunId] = .ok ck := hkey
        rw [aloneThen_ok, alone_bind, alone_lift, hrecord, aloneThen_ok, alone_bind, alone_lift]
        cases hchild : EventStore.childEvents env store.scope newRunId 0 none events with
        | error e =>
          refine .inl ⟨?_, e, db, rfl, rfl⟩
          rintro ⟨_, _, _, _, h, -⟩
          obtain ⟨kept', events', hkept', hevents', hchild'⟩ := h.rows
          rw [hkept] at hkept'
          rw [← Option.some.inj hkept', hevents] at hevents'
          rw [← Except.ok.inj hevents', hchild] at hchild'
          cases hchild'
        | ok p =>
          obtain ⟨rows, head⟩ := p
          have hfork : Prefork env store newRunId id db.tables parent ck rows head :=
            ⟨hverified, hexpects, hclean, hkey, Option.not_isSome_iff_eq_none.mp htaken, kept,
              events, hkept, hevents, hchild⟩
          rw [aloneThen_ok, alone_bind, alone_begin, aloneThen_ok, alone_tryElse]
          let child := store.childRun newRunId id label now parent rows.length head
          have hchild : child.scope = store.scope ∧ child.runId = newRunId := ⟨rfl, rfl⟩
          rcases alone_forkTransaction sdk i hfork hchild
            with ⟨hroom, hrun⟩ | ⟨hroom, e, ws, hrun⟩
          · refine .inr ⟨ck, rows, head, hfork, hroom, ?_⟩
            rw [hrun, aloneElse_ok]
            rfl
          · obtain ⟨e', habandon⟩ := alone_abandonFork env sdk i store db newRunId e ws
            refine .inl ⟨?_, e', withdrawn i db, ?_, rfl⟩
            · rintro ⟨_, _, _, _, h, hroom'⟩
              obtain ⟨rfl, rfl⟩ := h.unique hfork
              exact hroom hroom'
            · rw [hrun, aloneElse_error, habandon]

variable (env sdk i store) in
/-- A fork that runs alone either raises over unchanged tables or gets to the constructor of its
child. -/
lemma alone_forkPrefix (newRunId id : String) (label : Option String) (now now' : String)
    (db : Database) :
    (¬ Forkable env store newRunId id db.tables ∧ ∃ e db',
      alone sdk i (EventStore.forkPrefix env newRunId id label now now') store db =
        ((.error e, store), db') ∧ db'.tables = db.tables) ∨
    ∃ parent ck rows head, Prefork env store newRunId id db.tables parent ck rows head ∧
      Room store.scope newRunId db.tables ck rows ∧
      alone sdk i (EventStore.forkPrefix env newRunId id label now now') store db =
        alone sdk i (EventStore.new env newRunId store.scope now') store
          (committedFork sdk i store newRunId id label now parent ck rows head db) := by
  obtain ⟨x, hverify, hx⟩ := alone_verifiedRowsAndRun env sdk i store db
  unfold EventStore.forkPrefix EventStore.ensureOpen
  rw [alone_bind, alone_get, aloneThen_ok, alone_bind, alone_bind, alone_get, aloneThen_ok]
  by_cases hclosed : store.closed = true
  · rw [alone_raises sdk i hclosed, aloneThen_error]
    refine .inl ⟨?_, _, db, rfl, rfl⟩
    rintro ⟨_, _, _, _, h, -⟩
    rw [h.verified.opened] at hclosed
    cases hclosed
  rw [alone_passes sdk i hclosed, aloneThen_ok, alone_bind, hverify]
  cases x with
  | error e =>
    rw [aloneThen_error]
    refine .inl ⟨?_, e, db, rfl, rfl⟩
    rintro ⟨parent, _, _, _, h, -⟩
    cases (hx _ parent).mpr ⟨rfl, h.verified⟩
  | ok p =>
    obtain ⟨all, parent⟩ := p
    obtain ⟨rfl, hverified⟩ := (hx _ _).mp rfl
    rw [aloneThen_ok]
    dsimp only
    unfold EventStore.assertExpectedHead
    rw [alone_bind, alone_bind, alone_get, aloneThen_ok]
    by_cases hexpects : store.expects parent
    · rw [alone_passes sdk i (not_not.mpr hexpects), aloneThen_ok, alone_bind]
      by_cases hsnapshot : (db.tables.eventRows store.scope store.runId).head?.any
          (fun row => row.eventType = "runtime.snapshot") = true
      · rw [alone_raises sdk i hsnapshot, aloneThen_error]
        refine .inl ⟨?_, _, db, rfl, rfl⟩
        rintro ⟨_, _, _, _, h, -⟩
        rw [h.uncompacted] at hsnapshot
        cases hsnapshot
      · rw [alone_passes sdk i hsnapshot, aloneThen_ok]
        have hclean := (Bool.not_eq_true _).mp hsnapshot
        rcases alone_forkRows sdk i label now now' hverified hexpects hclean with
          hfails | ⟨ck, rows, head, hfork, hroom, hrun⟩
        · exact .inl hfails
        · exact .inr ⟨parent, ck, rows, head, hfork, hroom, hrun⟩
    · rw [alone_raises sdk i hexpects, aloneThen_error]
      refine .inl ⟨?_, _, db, rfl, rfl⟩
      rintro ⟨parent', _, _, _, h, -⟩
      have hsame : parent' = parent :=
        Option.some.inj (h.verified.present.symm.trans hverified.present)
      rw [← hsame] at hexpects
      exact hexpects h.observed

/-! ### The constructor of the child -/

section child

variable {ℓ : Type} {scope newRunId now : String}

variable (sdk i) in
lemma alone_new_ok (l : ℓ) {self : EventStore} {db' : Database}
    (h : alone sdk i (EventStore.construct env newRunId scope now) EventStore.blank db =
      ((.ok (), self), db')) :
    alone sdk i (EventStore.new env newRunId scope now) l db = ((.ok self, l), db') := by
  unfold alone EventStore.new
  rw [Prog.run_bind]
  unfold alone at h
  rw [h]
  rfl

variable (sdk i) in
lemma alone_new_error (l : ℓ) {self : EventStore} {e : PyErr} {db' : Database}
    (h : alone sdk i (EventStore.construct env newRunId scope now) EventStore.blank db =
      ((.error e, self), db')) :
    alone sdk i (EventStore.new env newRunId scope now) l db = ((.error e, l), db') := by
  unfold alone EventStore.new
  rw [Prog.run_bind]
  unfold alone at h
  rw [h]
  rfl

variable (sdk i now) in
/-- The constructor on a run that is there. -/
lemma alone_construct {row : RunRow} {key : RecordId .agRun} (hscope : scope ≠ "")
    (hkey : runKey env (scope, newRunId) = .ok key)
    (hrow : db.tables.run.lookup key.key = some row)
    (haddress : row.scope = scope ∧ row.runId = newRunId) : ∃ x self db',
    alone sdk i (EventStore.construct env newRunId scope now) EventStore.blank db =
        ((x, self), db') ∧
      db'.tables.run = db.tables.run ∧
      (x = .ok () ↔ newRunId ≠ "" ∧ SchemaFits schemaVersion db.tables.schema ∧
        row.nextSeq = (db.tables.eventRows scope newRunId).length ∧
        EventStore.verifyRows env scope newRunId 0 none (db.tables.eventRows scope newRunId) =
          .ok row.headHash) := by
  unfold EventStore.construct
  rw [alone_bind]
  by_cases hempty : newRunId = ""
  · rw [alone_raises sdk i hempty, aloneThen_error]
    refine ⟨_, _, db, rfl, rfl, fun h => (by cases h), fun h => absurd hempty h.1⟩
  have hconnect (self : EventStore) : alone sdk i (query .connect) self db = ((.ok (), self), db) :=
    alone_read sdk i self db rfl
  rw [alone_passes sdk i hempty, aloneThen_ok, alone_bind, alone_passes sdk i hscope, aloneThen_ok,
    alone_bind, alone_modify, aloneThen_ok, alone_bind, hconnect, aloneThen_ok, alone_tryCatch,
    alone_bind]
  let started : EventStore := ⟨scope, newRunId, false, ⟨""⟩, 0, none⟩
  by_cases hfits : SchemaFits schemaVersion db.tables.schema
  · obtain ⟨defined, db₁, hensure, htables⟩ :=
      alone_ensureSchema sdk i db started (by decide) hfits
    have hrecord : recordId env.sha256 .agRun [scope, newRunId] = .ok key := hkey
    let self : EventStore := ⟨scope, newRunId, false, key, 0, none⟩
    have hrow₁ : db₁.tables.run.lookup key.key = some row := by
      rw [htables]
      exact hrow
    have hread : alone sdk i EventStore.readRunRow self db₁ = ((.ok (some row), self), db₁) :=
      alone_readRunRow_some sdk i hrow₁ haddress.1 haddress.2
    have hexists : alone sdk i (EventStore.ensureRun now) self db₁ = ((.ok (), self), db₁) := by
      unfold EventStore.ensureRun
      rw [alone_bind, alone_get, aloneThen_ok, alone_bind, hread, aloneThen_ok]
      rfl
    obtain ⟨x, hverify, hx⟩ := alone_verifiedRowsAndRun env sdk i self db₁
    have hverified : ∀ row', Verified env self db₁.tables row' ↔ row' = row ∧
        row.nextSeq = (db.tables.eventRows scope newRunId).length ∧
        EventStore.verifyRows env scope newRunId 0 none (db.tables.eventRows scope newRunId) =
          .ok row.headHash := by
      intro row'
      have hrows : db₁.tables.eventRows scope newRunId = db.tables.eventRows scope newRunId := by
        rw [htables]
        rfl
      constructor
      · intro h
        obtain rfl : row' = row := Option.some.inj (h.present.symm.trans hrow₁)
        rw [← hrows]
        exact ⟨rfl, h.nextSeq, h.headHash⟩
      · rintro ⟨rfl, hnext, hhead⟩
        rw [← hrows] at hnext hhead
        exact ⟨rfl, hrow₁, haddress.1, haddress.2, hnext, hhead⟩
    change ∃ x self db', aloneElse sdk i _ _ (aloneThen sdk i _
      (alone sdk i (ensureSchema schemaVersion false) started db)) = _ ∧ _
    rw [hensure, aloneThen_ok, alone_bind, alone_lift, hrecord, aloneThen_ok, alone_bind,
      alone_modify, aloneThen_ok, alone_bind]
    have hself : ({ started with runRecord := key } : EventStore) = self := rfl
    rw [hself, hexists, aloneThen_ok, alone_bind]
    unfold EventStore.verifyIntegrity
    rw [alone_bind, hverify]
    cases x with
    | error e =>
      rw [aloneThen_error, aloneThen_error, aloneElse_error]
      refine ⟨.error e, { self with closed := true }, db₁, rfl, by rw [htables], ?_, ?_⟩
      · intro h
        cases h
      · rintro ⟨-, -, hnext, hhead⟩
        cases (hx _ row).mpr ⟨rfl, (hverified row).mpr ⟨rfl, hnext, hhead⟩⟩
    | ok p =>
      obtain ⟨rows, row'⟩ := p
      obtain ⟨rfl, h⟩ := (hx rows row').mp rfl
      obtain ⟨-, hnext, hhead⟩ := (hverified row').mp h
      exact ⟨.ok (), _, db₁, rfl, by rw [htables], fun _ => ⟨hempty, hfits, hnext, hhead⟩,
        fun _ => rfl⟩
  · obtain ⟨e, defined, db₁, hensure, htables⟩ :=
      alone_ensureSchema_error sdk i db started hfits
    refine ⟨.error e, ⟨scope, newRunId, true, ⟨""⟩, 0, none⟩, db₁, ?_, ?_, ?_⟩
    · change aloneElse sdk i _ _ (aloneThen sdk i _ (alone sdk i (ensureSchema schemaVersion false)
        started db)) = _
      rw [hensure, aloneThen_error, aloneElse_error]
      rfl
    · rw [htables]
    · exact ⟨fun h => (by cases h), fun h => absurd h.2.1 hfits⟩

end child

section committed

variable {newRunId id : String} {label : Option String} {now : String} {parent : RunRow}
  {ck : RecordId .agRun} {rows : List (RecordId .agEvent × EventRow)} {head : Option String}

variable (sdk i label now parent head) in
lemma tables_committedFork (newRunId id : String)
    (hroom : Room store.scope newRunId db.tables ck rows) :
    let after := (committedFork sdk i store newRunId id label now parent ck rows head db).tables
    after.run.lookup ck.key =
        some (store.childRun newRunId id label now parent rows.length head) ∧
      after.schema = db.tables.schema ∧
      after.event.rows = (rows.map Prod.snd).reverse ++ db.tables.event.rows := by
  let child := store.childRun newRunId id label now parent rows.length head
  let t : Tables := { db.tables with
    run := (db.tables.run.write store.runRecord.key (some parent)).write ck.key (some child) }
  obtain ⟨event, htables, hrows⟩ := applyAll_eventWrites sdk rows t
  have hafter : (committedFork sdk i store newRunId id label now parent ck rows head db).tables =
      { t with event } := by
    unfold committedFork
    rw [tables_commit, ← htables]
    rfl
  dsimp only
  rw [hafter]
  refine ⟨?_, rfl, hrows hroom.rows⟩
  change ((db.tables.run.write store.runRecord.key (some parent)).write ck.key
    (some child)).lookup ck.key = _
  rw [Records.lookup_write, if_pos rfl]

/-- The rows of the child are the chain of the events that it has from its parent. -/
lemma Prefork.chain (henc : EncodesJson env)
    (hfork : Prefork env store newRunId id t parent ck rows head) : ∃ es : List (LogEvent F),
    rows.map Prod.snd = chainRows env store.scope newRunId es ∧
      head = headOf env store.scope newRunId es := by
  obtain ⟨es, hes, -⟩ := verifyRows_decodes henc hfork.verified.headHash
  obtain ⟨kept, events, hkept, hevents, hchild⟩ := hfork.rows
  unfold EventStore.prefixRows at hkept
  split at hkept
  · cases hkept
  · next index _ =>
    obtain rfl := Option.some.inj hkept
    obtain ⟨events', hevents', hplain⟩ := mapM_of_decodes (List.forall₂_take (index + 1) hes)
    obtain rfl := Except.ok.inj (hevents.symm.trans hevents')
    obtain ⟨hrows, -, hhead⟩ := childEvents_plain henc hplain hchild
    exact ⟨es.take (index + 1), hrows, hhead⟩

variable (sdk i label now) in
/-- The constructor accepts the child exactly when no event record of its address was there. -/
lemma verified_child (henc : EncodesJson env)
    (hfork : Prefork env store newRunId id db.tables parent ck rows head)
    (hroom : Room store.scope newRunId db.tables ck rows) :
    let after := (committedFork sdk i store newRunId id label now parent ck rows head db).tables
    (rows.length : Int) = (after.eventRows store.scope newRunId).length ∧
        EventStore.verifyRows env store.scope newRunId 0 none
          (after.eventRows store.scope newRunId) = .ok head ↔
      db.tables.eventRows store.scope newRunId = [] := by
  obtain ⟨-, -, hafter⟩ := tables_committedFork sdk i label now parent head newRunId id hroom
  obtain ⟨es, hchain, hhead⟩ := hfork.chain henc
  intro after
  let strays := db.tables.event.rows.filter fun row =>
    row.scope = store.scope && row.runId = newRunId
  have hown : (chainRows env store.scope newRunId es).reverse.filter
      (fun row => row.scope = store.scope && row.runId = newRunId) =
        (chainRows env store.scope newRunId es).reverse := by
    rw [List.filter_eq_self]
    intro row hrow
    obtain ⟨hscope, hrun, -⟩ := mem_rowsFrom (List.mem_reverse.mp hrow)
    simp [hscope, hrun]
  have hrows : after.eventRows store.scope newRunId =
      ((chainRows env store.scope newRunId es).reverse ++ strays).insertionSort
        fun a b => a.seq ≤ b.seq := by
    unfold Tables.eventRows
    rw [hafter, hchain, List.filter_append, hown]
  have hlen : rows.length = es.length := by
    rw [← List.length_map (f := Prod.snd), hchain, length_chainRows]
  have hstrays : db.tables.eventRows store.scope newRunId = [] ↔ strays = [] := by
    rw [← List.length_eq_zero_iff, ← List.length_eq_zero_iff]
    unfold Tables.eventRows
    rw [List.length_insertionSort]
  rw [hstrays]
  constructor
  · rintro ⟨hcount, -⟩
    rw [hrows, List.length_insertionSort, List.length_append, List.length_reverse,
      length_chainRows, hlen] at hcount
    apply List.length_eq_zero_iff.mp
    omega
  · intro hnone
    have hsorted : after.eventRows store.scope newRunId =
        chainRows env store.scope newRunId es := by
      rw [hrows, hnone, List.append_nil]
      exact Records.insertionSort_eq (pairwise_chainRows es) (List.reverse_perm _)
    rw [hsorted, length_chainRows, hlen, hhead]
    exact ⟨rfl, verifyRows_chainRows henc es⟩

end committed

/-! ### When a failed fork leaves no child -/

/-- The constructor of a child accepts this state. -/
structure Welcomes (scope newRunId : String) (t : Tables) : Prop where
  named : newRunId ≠ ""
  schema : SchemaFits schemaVersion t.schema
  strays : t.eventRows scope newRunId = []

variable (env sdk i) in
/-- A fork that raises has left the records of runs and of events as they were, whatever it
forks and from whatever tables, exactly when the constructor of its child has nothing to object
to where the fork would get so far. -/
theorem failed_fork_leaves_no_child_iff (henc : EncodesJson env) (hscope : store.scope ≠ "")
    (newRunId id : String) (label : Option String) (now now' : String) (db : Database) :
    (∀ e l db', alone sdk i (EventStore.forkPrefix env newRunId id label now now') store db =
        ((.error e, l), db') →
      db'.tables.run = db.tables.run ∧ db'.tables.event = db.tables.event) ↔
    (Forkable env store newRunId id db.tables → Welcomes store.scope newRunId db.tables) := by
  rcases alone_forkPrefix env sdk i store newRunId id label now now' db with
    ⟨hnot, e, db', hrun, htables⟩ | ⟨parent, ck, rows, head, hfork, hroom, hrun⟩
  · rw [hrun]
    refine ⟨fun _ h => absurd h hnot, fun _ e' l db'' h => ?_⟩
    rw [← (Prod.mk.inj h).2, htables]
    exact ⟨rfl, rfl⟩
  · obtain ⟨hchild, hschema, -⟩ :=
      tables_committedFork sdk i label now parent head newRunId id hroom
    obtain ⟨x, self, db', hconstruct, hkept, hx⟩ :=
      alone_construct sdk i now' hscope hfork.key hchild ⟨rfl, rfl⟩
    have haccepted : x = .ok () ↔ Welcomes store.scope newRunId db.tables := by
      have hverified := verified_child sdk i label now henc hfork hroom
      rw [hx, hschema]
      constructor
      · rintro ⟨hnamed, hfits, hnext, hhead⟩
        exact ⟨hnamed, hfits, hverified.mp ⟨hnext, hhead⟩⟩
      · rintro ⟨hnamed, hfits, hstrays⟩
        obtain ⟨hnext, hhead⟩ := hverified.mpr hstrays
        exact ⟨hnamed, hfits, hnext, hhead⟩
    rw [hrun]
    constructor
    · intro hleaves _
      rw [← haccepted]
      cases x with
      | ok u => rfl
      | error e =>
        obtain ⟨hsame, -⟩ := hleaves e store db' (alone_new_error sdk i store hconstruct)
        have hfree := hfork.free
        rw [← hsame, hkept, hchild] at hfree
        cases hfree
    · intro hwelcome e l db'' h
      obtain rfl := haccepted.mpr (hwelcome ⟨parent, ck, rows, head, hfork, hroom⟩)
      rw [alone_new_ok sdk i store hconstruct] at h
      cases h

/-! ### A fork to the empty run id -/

/-- A run with one event, and a handle that has observed it. -/
def forkedStore : EventStore where
  scope := "s"
  runId := "r"
  closed := false
  runRecord := (runKey (reference Unit) ("s", "r")).toOption.getD ⟨""⟩
  expectedNextSeq := 1
  expectedHeadHash := headOf (reference Unit) "s" "r" [writtenEvent]

def forkedRow : RunRow := { EventStore.newRun "s" "r" "now" with
  nextSeq := 1
  headHash := headOf (reference Unit) "s" "r" [writtenEvent] }

def forkedTables : Tables := { Tables.empty with
  schema := some ⟨schemaVersion, "now"⟩
  run := (∅ : Records RunRow).write forkedStore.runRecord.key (some forkedRow)
  event := (chainRows (reference Unit) "s" "r" [writtenEvent]).foldl
    (fun t row => t.write "first" (some row)) ∅ }

def forkedDatabase : Database := { freshDatabase with tables := forkedTables }

lemma verified_forked : Verified (reference Unit) forkedStore forkedTables forkedRow where
  opened := rfl
  present := by
    unfold forkedTables
    rw [Records.lookup_write, if_pos rfl]
  scope := rfl
  runId := rfl
  nextSeq := rfl
  headHash := verifyRows_chainRows reference_encodesJson [writtenEvent]

lemma childEvents_forked : ∃ record hash,
    EventStore.childEvents (reference Unit) "s" "" 0 none [(writtenEvent.toEvent : Event Unit Empty)] =
        .ok ([(record, EventStore.eventRow "s" "" writtenEvent.record 0 none hash)], some hash) ∧
      record.key ≠ "first" := by
  have hrecord : ∃ record, eventKey (reference Unit) ("s", "") "a" = .ok record ∧
      record.key ≠ "first" := ⟨_, rfl, by decide⟩
  obtain ⟨record, hrecord, hne⟩ := hrecord
  have hrecord' : recordId (reference Unit).sha256 .agEvent ["s", "", "a"] = .ok record := hrecord
  have hid : (writtenEvent.toEvent : Event Unit Empty).id = "a" := rfl
  have hencode : eventToRecord (reference Unit) (writtenEvent.toEvent : Event Unit Empty) =
      .ok writtenEvent.record :=
    eventToRecord_ok_iff.mpr ⟨writtenEvent, normal_toEvent reference_encodesJson _, rfl⟩
  have hhash := eventHash_toEvent (X := Empty) reference_encodesJson "s" "" 0 none writtenEvent
  refine ⟨record, writtenEvent.link (reference Unit) "s" "" 0 none, ?_, hne⟩
  unfold EventStore.childEvents EventStore.childEvents
  rw [hid, hrecord', hencode, hhash]
  rfl

lemma forkable_forked : Forkable (reference Unit) forkedStore "" "a" forkedTables := by
  obtain ⟨record, hash, hchild, hne⟩ := childEvents_forked
  have hkey : ∃ ck, runKey (reference Unit) ("s", "") = .ok ck ∧
      ck.key ≠ forkedStore.runRecord.key := ⟨_, rfl, by decide⟩
  obtain ⟨ck, hkey, hfresh⟩ := hkey
  have hfree : forkedTables.run.lookup ck.key = none := by
    unfold forkedTables
    rw [Records.lookup_write, if_neg hfresh]
    rfl
  have hrow : ∀ key row, forkedTables.run.lookup key = some row → row = forkedRow := by
    intro key row h
    unfold forkedTables at h
    rw [Records.lookup_write] at h
    split at h
    · exact (Option.some.inj h).symm
    · cases h
  have hevent : ∀ key row, forkedTables.event.lookup key = some row →
      key = "first" ∧ row.runId = "r" := by
    intro key row h
    change (Records.write "first" (some _) ∅).lookup key = some row at h
    rw [Records.lookup_write] at h
    split at h
    · next hkey =>
      rw [← Option.some.inj h]
      exact ⟨hkey, rfl⟩
    · cases h
  have hrows : EventStore.prefixRows "a" (forkedTables.eventRows "s" "r") =
      some (chainRows (reference Unit) "s" "r" [writtenEvent]) := rfl
  have hevents : (chainRows (reference Unit) "s" "r" [writtenEvent]).mapM
      (fun row => recordToEvent (reference Unit) row.toEventRecord) =
        .ok [(writtenEvent.toEvent : Event Unit Empty)] :=
    mapM_decode (decode_chainRows [writtenEvent])
  refine ⟨forkedRow, ck, [(record, EventStore.eventRow "s" "" writtenEvent.record 0 none hash)],
    some hash, ⟨verified_forked, ⟨rfl, rfl⟩, rfl, hkey, hfree, _, _, hrows, hevents, hchild⟩, ?_, ?_⟩
  · rw [← Bool.not_eq_true, Records.anyElse_iff]
    rintro ⟨key, row, -, hlookup, hclash⟩
    rw [hrow key row hlookup] at hclash
    cases hclash
  · refine ⟨?_, ?_, trivial⟩
    · cases hlookup : forkedTables.event.lookup record.key with
      | none => rfl
      | some row => exact absurd (hevent _ row hlookup).1 hne
    · rw [← Bool.not_eq_true, Records.anyElse_iff]
      rintro ⟨key, row, -, hlookup, hclash⟩
      obtain ⟨-, hrun⟩ := hevent key row hlookup
      simp [eventClash, EventStore.eventRow, hrun] at hclash

theorem failed_fork_leaves_no_child_iff_forked :
    (∀ e l db', alone referenceSdk 0 (EventStore.forkPrefix (reference Unit) "c" "a" none "now"
        "later") forkedStore forkedDatabase = ((.error e, l), db') →
      db'.tables.run = forkedTables.run ∧ db'.tables.event = forkedTables.event) ↔
    (Forkable (reference Unit) forkedStore "c" "a" forkedTables →
      Welcomes "s" "c" forkedTables) :=
  failed_fork_leaves_no_child_iff (reference Unit) referenceSdk 0 reference_encodesJson (by decide)
    "c" "a" none "now" "later" forkedDatabase

/-- The fork raises, and its child is there. -/
theorem failed_fork_leaves_nameless_child : ∃ db' ck row,
    alone referenceSdk 0 (EventStore.forkPrefix (reference Unit) "" "a" none "now" "later")
        forkedStore forkedDatabase =
      ((.error ⟨.valueError, "run_id must be non-empty"⟩, forkedStore), db') ∧
    runKey (reference Unit) ("s", "") = .ok ck ∧
    forkedTables.run.lookup ck.key = none ∧ db'.tables.run.lookup ck.key = some row := by
  rcases alone_forkPrefix (reference Unit) referenceSdk 0 forkedStore "" "a" none "now" "later"
      forkedDatabase with ⟨hnot, -⟩ | ⟨parent, ck, rows, head, hfork, hroom, hrun⟩
  · exact absurd forkable_forked hnot
  · obtain ⟨hchild, -⟩ :=
      tables_committedFork referenceSdk 0 none "now" parent head "" "a" hroom
    let db' := committedFork referenceSdk 0 forkedStore "" "a" none "now" parent ck rows head
      forkedDatabase
    have hconstruct : alone referenceSdk 0 (EventStore.construct (reference Unit) ""
        forkedStore.scope "later") EventStore.blank db' =
          ((.error ⟨.valueError, "run_id must be non-empty"⟩, EventStore.blank), db') := by
      unfold EventStore.construct
      rw [alone_bind, alone_raises referenceSdk 0 rfl, aloneThen_error]
    refine ⟨db', ck, _, ?_, hfork.key, hfork.free, hchild⟩
    rw [hrun]
    exact alone_new_error referenceSdk 0 forkedStore hconstruct

end ActiveGraphSurreal
