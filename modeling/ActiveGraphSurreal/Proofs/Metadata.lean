import ActiveGraphSurreal.Proofs.ListModel

/-!
# Run metadata

The run record is written by three: the constructor creates it, `upsert_run` merges fields into
it, and appends and truncations move its head. Whatever their order, a field has the last value
that was supplied for it, and the time of creation is the constructor's.
-/

namespace ActiveGraphSurreal

open Library

set_option linter.unusedSectionVars false

variable {F X : Type} [Json.ScalarText F] {env : Env F X} {sdk : Sdk} {φ : Faults PyErr} {i : Nat}
  {g : String × String} {key : String} {m : RunRow} {db db' : Database}

/-! ### The two parts of a run record -/

/-- A run record without its head. -/
def RunRow.metadata (row : RunRow) : RunRow := { row with nextSeq := 0, headHash := none }

def RunRow.head (row : RunRow) : Int × Option String := (row.nextSeq, row.headHash)

def Tables.HasMetadata (t : Tables) (key : String) (m : RunRow) : Prop :=
  ∃ row, t.run.lookup key = some row ∧ row.metadata = m

/-- The write leaves the metadata of the record as they are. -/
def Write.KeepsMetadata (key : String) (m : RunRow) : Write → Prop
  | .run k row => k = key → ∃ r, row = some r ∧ r.metadata = m
  | _ => True

/-- The statements of an append or a truncation. -/
def Stmt.MovesHead : Stmt → Prop
  | .selectRun _ | .mergeHead .. | .selectEvent _ | .createEvent .. | .deleteEventsAfter .. => True
  | _ => False

lemma hasMetadata_apply {w : Write} (hw : w.KeepsMetadata key m) {t : Tables}
    (ht : t.HasMetadata key m) : (w.apply t).HasMetadata key m := by
  cases w with
  | run k row =>
    by_cases hk : k = key
    · obtain ⟨r, rfl, hr⟩ := hw hk
      refine ⟨r, ?_, hr⟩
      change (t.run.write k (some r)).lookup key = some r
      rw [Records.lookup_write, if_pos hk.symm]
    · obtain ⟨r, hlookup, hr⟩ := ht
      refine ⟨r, ?_, hr⟩
      change (t.run.write k row).lookup key = some r
      rw [Records.lookup_write, if_neg fun heq => hk heq.symm]
      exact hlookup
  | _ => exact ht

lemma kept_metadata (sdk : Sdk) (key : String) (m : RunRow) :
    Kept (engine sdk) Stmt.MovesHead (Tables.HasMetadata · key m) (Write.KeepsMetadata key m) where
  exec st t r ws hst ht hexec w hw := by
    cases st with
    | selectRun record =>
      obtain rfl := (Prod.mk.inj (Except.ok.inj hexec)).2
      cases hw
    | selectEvent record =>
      obtain rfl := (Prod.mk.inj (Except.ok.inj hexec)).2
      cases hw
    | mergeHead record nextSeq headHash =>
      change Except.ok (update t.run record.key fun row => { row with nextSeq, headHash }) = _ at hexec
      unfold update at hexec
      cases hlookup : t.run.lookup record.key with
      | none =>
        rw [hlookup] at hexec
        obtain rfl := (Prod.mk.inj (Except.ok.inj hexec)).2
        cases hw
      | some row =>
        rw [hlookup] at hexec
        obtain rfl := (Prod.mk.inj (Except.ok.inj hexec)).2
        rw [List.mem_singleton.mp hw]
        rintro rfl
        obtain ⟨row', hlookup', hrow'⟩ := ht
        obtain rfl : row = row' := Option.some.inj (hlookup.symm.trans hlookup')
        exact ⟨_, rfl, hrow'⟩
    | createEvent record content =>
      rw [exec_createEvent hexec] at hw
      rw [List.mem_singleton.mp hw]
      trivial
    | deleteEventsAfter scope runId cutoffSeq =>
      obtain rfl := (Prod.mk.inj (Except.ok.inj hexec)).2
      obtain ⟨k, -, rfl⟩ := List.mem_map.mp hw
      trivial
    | _ => exact hst.elim
  apply t w ht hw := hasMetadata_apply hw ht

/-! ### Appends and truncations -/

namespace EventStore

variable {begun : Bool}

/-- The method makes the statements of an append or a truncation only. -/
abbrev Heads {α : Type} (begun : Bool) (m : Py EventStore α) : Prop :=
  KeepsTo Stmt.MovesHead (fun _ => True) begun m

lemma heads_ensureOpen : Heads begun ensureOpen := KeepsTo.get fun _ _ => keepsTo_lift _

lemma heads_eventRecord (id : String) : Heads begun (eventRecord env id) :=
  KeepsTo.get fun _ _ => keepsTo_lift _

lemma heads_readRunRow : Heads begun readRunRow := by
  unfold readRunRow
  refine KeepsTo.get fun self _ => (keepsTo_query trivial).bind fun row => ?_
  cases row with
  | none => exact keepsTo_pure _
  | some row => exact (keepsTo_lift _).bind fun _ => keepsTo_pure _

lemma heads_runRow : Heads true (transactionRunRow env) := by
  unfold transactionRunRow
  refine KeepsTo.get fun self _ => (keepsTo_txQuery trivial).bind fun row => ?_
  cases row with
  | none => exact keepsTo_throw _
  | some row => exact (keepsTo_lift _).bind fun _ => keepsTo_pure _

lemma heads_assertExpectedHead (head : RunRow) : Heads begun (assertExpectedHead env head) :=
  KeepsTo.get fun _ _ => keepsTo_lift _

lemma heads_abandon (passed : List ErrClass) (exc : PyErr) :
    Heads begun (abandon env passed exc) := by
  have hraise : Heads begun (raiseIfConcurrent env exc) := by
    unfold raiseIfConcurrent
    refine KeepsTo.get fun self _ => ?_
    exact (KeepsTo.tryCatch heads_readRunRow fun _ => keepsTo_pure _).bind fun _ => keepsTo_lift _
  unfold abandon
  refine keepsTo_cancelSafely.bind fun _ => (keepsTo_lift _).bind fun _ => ?_
  exact hraise.bind fun _ => keepsTo_throw exc

lemma heads_observe (head : Int × Option String) : Heads begun (observe head) :=
  keepsTo_modify fun _ _ => trivial

lemma heads_append (event : Event F X) : Heads begun (append env event) := by
  have htransaction (encoded : EventRecord) : Heads true (appendTransaction env event encoded) := by
    unfold appendTransaction
    refine KeepsTo.get fun self _ => heads_runRow.bind fun head => ?_
    refine (heads_assertExpectedHead head).bind fun _ => (heads_eventRecord _).bind fun record => ?_
    refine (keepsTo_txQuery trivial).bind fun existing => (keepsTo_lift _).bind fun _ => ?_
    refine (keepsTo_lift _).bind fun currentHash => (keepsTo_txQuery trivial).bind fun _ => ?_
    exact (keepsTo_txQuery trivial).bind fun _ => keepsTo_commit.bind fun _ => keepsTo_pure _
  unfold append
  refine (keepsTo_lift _).bind fun encoded => heads_ensureOpen.bind fun _ => KeepsTo.begin ?_
  exact KeepsTo.tryElse (htransaction encoded) (heads_abandon _) heads_observe

lemma heads_truncateAfter (id : String) : Heads begun (truncateAfter env id) := by
  have htransaction : Heads true (truncateTransaction env id) := by
    unfold truncateTransaction
    refine KeepsTo.get fun self _ => heads_runRow.bind fun head => ?_
    refine (heads_assertExpectedHead head).bind fun _ => (heads_eventRecord _).bind fun record => ?_
    refine (keepsTo_txQuery trivial).bind fun cutoff => ?_
    cases cutoff with
    | none => exact keepsTo_throw _
    | some cutoff =>
      have hscope : Heads true (assertRowScope cutoff) := KeepsTo.get fun _ _ => keepsTo_lift _
      refine hscope.bind fun _ => (keepsTo_txQuery trivial).bind fun _ => ?_
      exact (keepsTo_txQuery trivial).bind fun _ => keepsTo_commit.bind fun _ => keepsTo_pure _
  unfold truncateAfter
  refine heads_ensureOpen.bind fun _ => KeepsTo.begin ?_
  exact KeepsTo.tryElse htransaction (heads_abandon _) heads_observe

/-- An append or a truncation, however it ends, leaves the metadata as they are. -/
lemma exec_heads {α : Type} {m' : Py EventStore α} (hm : Heads false m') {store : EventStore}
    {h : List (CallRec Call Answer Database)} {x : Except PyErr α × EventStore}
    (he : (m' store).Exec ((engine sdk).serve φ i) db h x db') (ht : db.tables.HasMetadata key m) :
    db'.tables.HasMetadata key m :=
  ((hm store false trivial nofun).exec (kept_metadata sdk key m) he ht nofun).1

/-! ### Calls that return -/

section returns

variable {ℓ : Type} {l l' : ℓ} {h : List (CallRec Call Answer Database)}

/-- A query that has returned was carried out. -/
lemma exec_query_ok {st : Stmt} {r : st.Reply}
    (he : ((query st : Py ℓ st.Reply) l).Exec ((engine sdk).serve φ i) db h (.ok r, l') db') :
    l' = l ∧ ∃ ws, st.exec sdk db.tables = .ok (r, ws) ∧ db' = (engine sdk).commit ws db := by
  obtain ⟨answer, db₁, h₁, hs, -, hk⟩ := Prog.exec_call_iff.mp he
  obtain ⟨-, hend, rfl⟩ := Prog.exec_done_iff.mp hk
  obtain ⟨hanswer, rfl⟩ := Prod.mk.inj hend
  refine ⟨rfl, ?_⟩
  subst hanswer
  rcases hs with hs | ⟨e, -, hfailed, -⟩
  · simp only [Engine.perform] at hs
    cases hexec : st.exec sdk db.tables with
    | error e =>
      rw [show (engine sdk).exec st db.tables = .error e from hexec] at hs
      cases (Prod.mk.inj hs).1
    | ok x =>
      obtain ⟨r', ws⟩ := x
      rw [show (engine sdk).exec st db.tables = .ok (r', ws) from hexec] at hs
      obtain ⟨hr, rfl⟩ := Prod.mk.inj hs
      obtain rfl := Except.ok.inj hr
      exact ⟨ws, rfl, rfl⟩
  · cases hfailed

lemma exec_get {α : Type} {f : ℓ → Py ℓ α} {x : Except PyErr α × ℓ} :
    ((get >>= f) l).Exec ((engine sdk).serve φ i) db h x db' ↔
      (f l l).Exec ((engine sdk).serve φ i) db h x db' := Iff.rfl

lemma exec_lift_ok {α : Type} {x : Except PyErr α} {a : α}
    (he : ((lift x : Py ℓ α) l).Exec ((engine sdk).serve φ i) db h (.ok a, l') db') :
    x = .ok a ∧ l' = l ∧ db' = db := by
  cases x with
  | error e => cases (Prog.exec_done_iff.mp he).2.1
  | ok b =>
    obtain ⟨-, hend, hdb⟩ := Prog.exec_done_iff.mp he
    obtain ⟨hb, hl⟩ := Prod.mk.inj hend
    exact ⟨hb.symm, hl, hdb⟩

end returns

variable {store store' : EventStore} {h : List (CallRec Call Answer Database)}

lemma exec_ensureOpen_ok {u : Unit}
    (he : (ensureOpen store).Exec ((engine sdk).serve φ i) db h (.ok u, store') db') :
    store.closed = false ∧ store' = store ∧ db' = db := by
  have hlift : (lift (raiseIf (store.closed = true)
      ⟨.closedStoreError, "the SurrealEventStore is closed"⟩) store).Exec
      ((engine sdk).serve φ i) db h (.ok u, store') db' := he
  obtain ⟨hopen, hstore, hdb⟩ := exec_lift_ok hlift
  exact ⟨by simpa using raiseIf_eq_ok.mp hopen, hstore, hdb⟩

lemma exec_readRunRow_ok {row : Option RunRow}
    (he : (readRunRow store).Exec ((engine sdk).serve φ i) db h (.ok row, store') db') :
    db.tables.run.lookup store.runRecord.key = row ∧ store' = store ∧ db' = db := by
  unfold readRunRow at he
  rw [exec_get] at he
  obtain ⟨read, store₂, db₂, h₃, h₄, hquery, hrest, -⟩ := Method.exec_bind_ok he
  obtain ⟨rfl, ws, hexec, rfl⟩ := exec_query_ok hquery
  obtain ⟨hread, rfl⟩ := Prod.mk.inj (Except.ok.inj hexec)
  rw [hread]
  cases read with
  | none =>
    obtain ⟨-, hend, rfl⟩ := Prog.exec_done_iff.mp hrest
    obtain ⟨hrow, rfl⟩ := Prod.mk.inj hend
    exact ⟨(Except.ok.inj hrow).symm, rfl, rfl⟩
  | some r =>
    obtain ⟨u, store₃, db₃, h₅, h₆, hlift, hreturn, -⟩ := Method.exec_bind_ok hrest
    obtain ⟨-, rfl, rfl⟩ := exec_lift_ok hlift
    obtain ⟨-, hend, rfl⟩ := Prog.exec_done_iff.mp hreturn
    obtain ⟨hrow, rfl⟩ := Prod.mk.inj hend
    exact ⟨(Except.ok.inj hrow).symm, rfl, rfl⟩

/-! ### Upserts -/

/-- An upsert that has returned has merged its fields into the record. -/
lemma exec_upsertRun_ok {patch : RunPatch} {createdAt : String} {u : Unit}
    (he : (upsertRun patch createdAt store).Exec ((engine sdk).serve φ i) db h (.ok u, store') db')
    (ht : db.tables.HasMetadata store.runRecord.key m) :
    db'.tables.HasMetadata store.runRecord.key (patch.merge m) := by
  obtain ⟨row, hlookup, rfl⟩ := ht
  unfold upsertRun at he
  rw [exec_get] at he
  obtain ⟨_, store₂, db₂, h₃, h₄, hopen, hrest, -⟩ := Method.exec_bind_ok he
  obtain ⟨-, rfl, rfl⟩ := exec_ensureOpen_ok hopen
  obtain ⟨read, store₃, db₃, h₅, h₆, hread, hwrite, -⟩ := Method.exec_bind_ok hrest
  obtain ⟨hrow, rfl, rfl⟩ := exec_readRunRow_ok hread
  obtain rfl := hrow.symm.trans hlookup
  simp only at hwrite
  split at hwrite
  · next hpatch =>
    obtain ⟨-, -, rfl⟩ := Prog.exec_done_iff.mp hwrite
    refine ⟨row, hlookup, ?_⟩
    rw [hpatch]
    rfl
  · obtain ⟨-, ws, hexec, rfl⟩ := exec_query_ok hwrite
    rw [exec_mergeRun] at hexec
    unfold update at hexec
    rw [hlookup] at hexec
    obtain rfl := (Prod.mk.inj (Except.ok.inj hexec)).2
    refine ⟨patch.merge row, ?_, rfl⟩
    change (db₃.tables.run.write _ _).lookup _ = _
    rw [Records.lookup_write, if_pos rfl]

/-! ### The constructor -/

lemma exec_verifyIntegrity_ok {report : IntegrityReport}
    (he : (verifyIntegrity env store).Exec ((engine sdk).serve φ i) db h (.ok report, store') db') :
    (∃ row, db.tables.run.lookup store.runRecord.key = some row) ∧ store' = store ∧ db' = db := by
  unfold verifyIntegrity at he
  obtain ⟨verified, store₁, db₁, h₁, h₂, hverify, hreturn, -⟩ := Method.exec_bind_ok he
  obtain ⟨-, hend, rfl⟩ := Prog.exec_done_iff.mp hreturn
  obtain ⟨-, rfl⟩ := Prod.mk.inj hend
  unfold verifiedRowsAndRun at hverify
  rw [exec_get] at hverify
  obtain ⟨_, store₂, db₂, h₃, h₄, hopen, hrest, -⟩ := Method.exec_bind_ok hverify
  obtain ⟨-, rfl, rfl⟩ := exec_ensureOpen_ok hopen
  obtain ⟨rows, store₃, db₃, h₅, h₆, hrows, hrest', -⟩ := Method.exec_bind_ok hrest
  obtain ⟨rfl, ws, hexec, rfl⟩ := exec_query_ok hrows
  obtain ⟨-, rfl⟩ := Prod.mk.inj (Except.ok.inj hexec)
  obtain ⟨run, store₄, db₄, h₇, h₈, hrun, hlift, -⟩ := Method.exec_bind_ok hrest'
  obtain ⟨hlookup, rfl, rfl⟩ := exec_readRunRow_ok hrun
  obtain ⟨hverified, rfl, rfl⟩ := exec_lift_ok hlift
  cases run with
  | none => cases hverified
  | some row => exact ⟨⟨row, hlookup⟩, rfl, rfl⟩

/-- The record is absent so far, or has the metadata. -/
def Fresh (key : String) (m : RunRow) (t : Tables) : Prop :=
  t.run.lookup key = none ∨ t.HasMetadata key m

/-- The statements of an opening that creates the record with the metadata. -/
def Creating (key : String) (m : RunRow) : Stmt → Prop
  | .selectRun _ => True
  | .createRun record content => record.key = key → content.metadata = m
  | st => st.ForSchema

lemma kept_creating (sdk : Sdk) (key : String) (m : RunRow) :
    Kept (engine sdk) (Creating key m) (Fresh key m) (Write.KeepsMetadata key m) where
  exec st t r ws hst ht hexec w hw := by
    have hschema (hst : st.ForSchema) : w.KeepsMetadata key m := by
      have hw' : w.ForSchema := exec_forSchema hst hexec w hw
      cases w with
      | run k row => exact hw'.elim
      | _ => trivial
    cases st with
    | selectRun record =>
      obtain rfl := (Prod.mk.inj (Except.ok.inj hexec)).2
      cases hw
    | createRun record content =>
      obtain ⟨-, rfl⟩ := exec_createRun hexec
      rw [List.mem_singleton.mp hw]
      exact fun hkey => ⟨content, rfl, hst hkey⟩
    | _ => exact hschema hst
  apply t w ht hw := by
    rcases ht with hnone | ht
    · cases w with
      | run k row =>
        by_cases hk : k = key
        · obtain ⟨r, rfl, hr⟩ := hw hk
          right
          refine ⟨r, ?_, hr⟩
          change (t.run.write k (some r)).lookup key = some r
          rw [Records.lookup_write, if_pos hk.symm]
        · left
          change (t.run.write k row).lookup key = none
          rw [Records.lookup_write, if_neg fun heq => hk heq.symm]
          exact hnone
      | _ => exact .inl hnone
    · exact .inr (hasMetadata_apply hw ht)

lemma keepsTo_creatingRun {now : String} :
    KeepsTo (Creating key (newRun g.1 g.2 now))
      (fun store : EventStore => store.address = g) false (ensureRun now) := by
  have hread : KeepsTo (Creating key (newRun g.1 g.2 now))
      (fun store : EventStore => store.address = g) false readRunRow := by
    unfold readRunRow
    refine KeepsTo.get fun self _ => (keepsTo_query trivial).bind fun row => ?_
    cases row with
    | none => exact keepsTo_pure _
    | some row => exact (keepsTo_lift _).bind fun _ => keepsTo_pure _
  unfold ensureRun
  refine KeepsTo.get fun self hself => hread.bind fun row => ?_
  cases row with
  | some row => exact keepsTo_pure _
  | none =>
    obtain rfl : self.address = g := hself
    refine KeepsTo.tryCatch (keepsTo_query fun _ => rfl) fun e => ?_
    exact hread.bind fun _ => keepsTo_lift _

lemma creating_of_schema {st : Stmt} (hst : st.ForSchema) : Creating key m st := by
  cases st with
  | selectRun record => exact hst.elim
  | createRun record content => exact hst.elim
  | _ => exact hst

/-- The constructor that creates the record of a run writes its own time into it. -/
lemma exec_new_ok {now : String} {h : List (CallRec Call Answer Database)}
    (he : (EventStore.new env g.2 g.1 now ()).Exec ((engine sdk).serve φ i) db h (.ok store, ()) db')
    (habsent : db.tables.run.lookup store.runRecord.key = none) :
    db'.tables.HasMetadata store.runRecord.key (newRun g.1 g.2 now) := by
  unfold EventStore.new at he
  obtain ⟨⟨r, store₀⟩, db₀, h₁, h₂, hconstruct, hend, -⟩ := Prog.exec_bind_iff.mp he
  cases r with
  | error e => cases (Prog.exec_done_iff.mp hend).2.1
  | ok u =>
    obtain ⟨-, hreturn, rfl⟩ := Prog.exec_done_iff.mp hend
    obtain rfl := Except.ok.inj (Prod.mk.inj hreturn).1
    unfold construct at hconstruct
    obtain ⟨_, store₁, db₁, _, _, hrunId, hrest₁, -⟩ := Method.exec_bind_ok hconstruct
    obtain ⟨-, rfl, rfl⟩ := exec_lift_ok hrunId
    obtain ⟨_, store₂, db₂, _, _, hscope, hrest₂, -⟩ := Method.exec_bind_ok hrest₁
    obtain ⟨-, rfl, rfl⟩ := exec_lift_ok hscope
    obtain ⟨_, store₃, db₃, _, _, hmodify, hrest₃, -⟩ := Method.exec_bind_ok hrest₂
    obtain ⟨-, hstore₃, rfl⟩ := Prog.exec_done_iff.mp hmodify
    obtain rfl := (Prod.mk.inj hstore₃).2
    obtain ⟨_, store₄, db₄, _, _, hconnect, hrest₄, -⟩ := Method.exec_bind_ok hrest₃
    obtain ⟨rfl, ws, hexec, rfl⟩ := exec_query_ok hconnect
    obtain ⟨-, rfl⟩ := Prod.mk.inj (Except.ok.inj hexec)
    have hbody := Method.exec_tryCatch_ok (fun e l s h hraise => by
      obtain ⟨_, _, _, _, _, -, hthrow, -⟩ := Method.exec_bind_ok hraise
      cases (Prog.exec_done_iff.mp hthrow).2.1) hrest₄
    obtain ⟨_, store₅, db₅, _, _, hschema, hrest₅, -⟩ := Method.exec_bind_ok hbody
    have hschema' : KeepsTo (Creating store.runRecord.key (newRun g.1 g.2 now))
        (fun store : EventStore => store.address = g) false (ensureSchema schemaVersion false) :=
      keepsTo_ensureSchema (fun _ => creating_of_schema) schemaVersion false
    obtain ⟨hfresh, ⟨_, -, haddress⟩, -⟩ := (hschema' _ false rfl nofun).exec
      (kept_creating sdk _ _) hschema (.inl habsent) nofun
    obtain ⟨record, store₆, db₆, _, _, hrecord, hrest₆, -⟩ := Method.exec_bind_ok hrest₅
    obtain ⟨-, rfl, rfl⟩ := exec_lift_ok hrecord
    obtain ⟨_, store₇, db₇, _, _, hmodify', hrest₇, -⟩ := Method.exec_bind_ok hrest₆
    obtain ⟨-, hstore₇, rfl⟩ := Prog.exec_done_iff.mp hmodify'
    obtain rfl := (Prod.mk.inj hstore₇).2
    obtain ⟨_, store₈, db₈, _, _, hrun, hrest₈, -⟩ := Method.exec_bind_ok hrest₇
    have hat : ({ store₆ with runRecord := record } : EventStore).address = g := haddress
    obtain ⟨hfresh', -, -⟩ := (keepsTo_creatingRun _ false hat nofun).exec
      (kept_creating sdk _ _) hrun hfresh nofun
    obtain ⟨report, store₉, db₉, _, _, hverify, hrest₉, -⟩ := Method.exec_bind_ok hrest₈
    obtain ⟨⟨row, hrow⟩, rfl, rfl⟩ := exec_verifyIntegrity_ok hverify
    obtain ⟨-, hstore, rfl⟩ := Prog.exec_done_iff.mp hrest₉
    obtain rfl := (Prod.mk.inj hstore).2
    rcases hfresh' with hnone | hmetadata
    · cases hnone.symm.trans hrow
    · exact hmetadata

end EventStore

/-! ### What an upsert leaves alone -/

/-- The heads of the run records and the events. -/
structure SameHeads (t t' : Tables) : Prop where
  heads : ∀ k, (t'.run.lookup k).map RunRow.head = (t.run.lookup k).map RunRow.head
  event : t'.event = t.event

/-- The record is there, and the heads and the events are those of the tables. -/
def Describing (key : String) (t₀ t : Tables) : Prop :=
  (t.run.lookup key).isSome ∧ SameHeads t₀ t

/-- The statements of an upsert. -/
def Stmt.Describes (key : String) : Stmt → Prop
  | .selectRun _ | .mergeRun .. => True
  | .createRun record _ => record.key = key
  | _ => False

/-- A write of a run record with the head that it has had. -/
def Write.KeepsHead (t₀ : Tables) : Write → Prop
  | .run k row => ∃ r, row = some r ∧ (t₀.run.lookup k).map RunRow.head = some r.head
  | _ => False

lemma kept_describing (sdk : Sdk) (key : String) (t₀ : Tables) :
    Kept (engine sdk) (Stmt.Describes key) (Describing key t₀) (Write.KeepsHead t₀) where
  exec st t r ws hst ht hexec w hw := by
    cases st with
    | selectRun record =>
      obtain rfl := (Prod.mk.inj (Except.ok.inj hexec)).2
      cases hw
    | createRun record content =>
      obtain ⟨hnone, -⟩ := exec_createRun hexec
      obtain rfl : record.key = key := hst
      have hsome := ht.1
      rw [hnone] at hsome
      cases hsome
    | mergeRun record patch =>
      change Except.ok (update t.run record.key patch.merge) = _ at hexec
      unfold update at hexec
      cases hlookup : t.run.lookup record.key with
      | none =>
        rw [hlookup] at hexec
        obtain rfl := (Prod.mk.inj (Except.ok.inj hexec)).2
        cases hw
      | some row =>
        rw [hlookup] at hexec
        obtain rfl := (Prod.mk.inj (Except.ok.inj hexec)).2
        rw [List.mem_singleton.mp hw]
        refine ⟨_, rfl, ?_⟩
        rw [← ht.2.heads, hlookup]
        rfl
    | _ => exact hst.elim
  apply t w ht hw := by
    cases w with
    | run k row =>
      obtain ⟨r, rfl, hr⟩ := hw
      have hlookup (k' : String) : ((engine sdk).apply (Write.run k (some r)) t).run.lookup k' =
          if k' = k then some r else t.run.lookup k' := Records.lookup_write _ _ _ _
      refine ⟨?_, ?_, ht.2.event⟩
      · rw [hlookup]
        split
        · rfl
        · exact ht.1
      · intro k'
        rw [hlookup]
        split
        · next hk =>
          rw [hk, hr]
          rfl
        · exact ht.2.heads k'
    | _ => exact hw.elim

namespace EventStore

variable {store store' : EventStore} {h : List (CallRec Call Answer Database)}

/-- An upsert of a run that is there, however it ends, changes no head and no event. -/
lemma exec_upsertRun_sameHeads {patch : RunPatch} {createdAt : String} {x : Except PyErr Unit × EventStore}
    (he : (upsertRun patch createdAt store).Exec ((engine sdk).serve φ i) db h x db')
    (ht : db.tables.HasMetadata store.runRecord.key m) : SameHeads db.tables db'.tables := by
  have hkeeps : KeepsTo (Stmt.Describes store.runRecord.key)
      (fun self : EventStore => self.runRecord = store.runRecord) false
      (upsertRun patch createdAt) := by
    unfold upsertRun
    refine KeepsTo.get fun self hself => ?_
    have hopen : KeepsTo (Stmt.Describes store.runRecord.key)
        (fun self : EventStore => self.runRecord = store.runRecord) false ensureOpen :=
      KeepsTo.get fun _ _ => keepsTo_lift _
    have hread : KeepsTo (Stmt.Describes store.runRecord.key)
        (fun self : EventStore => self.runRecord = store.runRecord) false readRunRow := by
      unfold readRunRow
      refine KeepsTo.get fun self _ => (keepsTo_query trivial).bind fun row => ?_
      cases row with
      | none => exact keepsTo_pure _
      | some row => exact (keepsTo_lift _).bind fun _ => keepsTo_pure _
    refine hopen.bind fun _ => hread.bind fun row => ?_
    cases row with
    | none => exact keepsTo_query (congrArg RecordId.key hself)
    | some row =>
      simp only
      split
      · exact keepsTo_pure _
      · exact keepsTo_query trivial
  obtain ⟨row, hrow, -⟩ := ht
  have hstart : Describing store.runRecord.key db.tables db.tables :=
    ⟨by rw [hrow]; rfl, fun _ => rfl, rfl⟩
  exact ((hkeeps store false rfl nofun).exec (kept_describing sdk _ _) he hstart nofun).1.2

end EventStore

/-! ### Sequences -/

/-- The last value that was supplied for a field, if any. -/
def lastSupplied (field : RunPatch → Option String) (patches : List RunPatch) : Option String :=
  patches.reverse.findSome? field

lemma lastSupplied_concat (field : RunPatch → Option String) (patches : List RunPatch)
    (patch : RunPatch) :
    lastSupplied field (patches ++ [patch]) = (field patch <|> lastSupplied field patches) := by
  unfold lastSupplied
  rw [List.reverse_append, List.reverse_singleton, List.singleton_append, List.findSome?_cons]
  cases field patch with
  | none => rfl
  | some value => rfl

/-- A run record that has gone through the patches. -/
def described (m : RunRow) (patches : List RunPatch) : RunRow := { m with
  parentRunId := lastSupplied RunPatch.parentRunId patches <|> m.parentRunId
  forkedAtEventId := lastSupplied RunPatch.forkedAtEventId patches <|> m.forkedAtEventId
  label := lastSupplied RunPatch.label patches <|> m.label
  goal := lastSupplied RunPatch.goal patches <|> m.goal
  frameId := lastSupplied RunPatch.frameId patches <|> m.frameId }

lemma described_concat (m : RunRow) (patches : List RunPatch) (patch : RunPatch) :
    described m (patches ++ [patch]) = patch.merge (described m patches) := by
  have hassoc (a b c : Option String) : ((a <|> b) <|> c) = (a <|> (b <|> c)) := by
    cases a <;> rfl
  unfold described RunPatch.merge
  simp only [lastSupplied_concat, hassoc]

/-- Stores of one run at work, one operation after the other: upserts that return, with their
fields, and appends and truncations. -/
inductive Describe (env : Env F X) (sdk : Sdk) (φ : Faults PyErr) (g : String × String) :
    List RunPatch → Database → Database → Prop
  | nil (db : Database) : Describe env sdk φ g [] db db
  | upsert {patches db db' db''} {patch : RunPatch} {createdAt : String} {store store' : EventStore}
      {i : Nat} {h} (hprev : Describe env sdk φ g patches db db') (hstore : store.At env g)
      (he : (EventStore.upsertRun patch createdAt store).Exec ((engine sdk).serve φ i) db' h
        (.ok (), store') db'') : Describe env sdk φ g (patches ++ [patch]) db db''
  | append {patches db db' db''} {event : Event F X} {store : EventStore} {i : Nat} {h x}
      (hprev : Describe env sdk φ g patches db db')
      (he : (EventStore.append env event store).Exec ((engine sdk).serve φ i) db' h x db'') :
      Describe env sdk φ g patches db db''
  | truncate {patches db db' db''} {id : String} {store : EventStore} {i : Nat} {h x}
      (hprev : Describe env sdk φ g patches db db')
      (he : (EventStore.truncateAfter env id store).Exec ((engine sdk).serve φ i) db' h x db'') :
      Describe env sdk φ g patches db db''

lemma EventStore.At.record_eq {store store' : EventStore} (h : store.At env g)
    (h' : store'.At env g) : store.runRecord = store'.runRecord :=
  Except.ok.inj (h.record.symm.trans h'.record)

lemma describe_metadata {patches : List RunPatch} {store : EventStore} (hstore : store.At env g)
    (hrun : Describe env sdk φ g patches db db')
    (ht : db.tables.HasMetadata store.runRecord.key m) :
    db'.tables.HasMetadata store.runRecord.key (described m patches) := by
  induction hrun with
  | nil db => exact ht
  | upsert hprev hstore' he ih =>
    have hbefore := ih ht
    rw [hstore.record_eq hstore'] at hbefore ⊢
    rw [described_concat]
    exact EventStore.exec_upsertRun_ok he hbefore
  | append hprev he ih => exact EventStore.exec_heads (EventStore.heads_append _) he (ih ht)
  | truncate hprev he ih => exact EventStore.exec_heads (EventStore.heads_truncateAfter _) he (ih ht)

/-- After a constructor has created the record of a run, upserts, appends and truncations in any
order leave the fields that were supplied last and the constructor's time, and an upsert leaves
heads and events alone. -/
theorem upserts_coalesce {now : String} {store₀ : EventStore} {db₀ db₁ : Database} {h₀}
    {patches : List RunPatch}
    (hnew : (EventStore.new env g.2 g.1 now ()).Exec ((engine sdk).serve φ i) db₀ h₀
      (.ok store₀, ()) db₁)
    (habsent : db₀.tables.run.lookup store₀.runRecord.key = none)
    (hrun : Describe env sdk φ g patches db₁ db) {store : EventStore} (hstore : store.At env g) :
    (store.closed = false → alone sdk i EventStore.getRun store db = ((.ok (some {
        runId := g.2
        parentRunId := lastSupplied RunPatch.parentRunId patches
        forkedAtEventId := lastSupplied RunPatch.forkedAtEventId patches
        label := lastSupplied RunPatch.label patches
        createdAt := now
        goal := lastSupplied RunPatch.goal patches
        frameId := lastSupplied RunPatch.frameId patches }), store), db)) ∧
    ∀ patch createdAt h x db', (EventStore.upsertRun patch createdAt store).Exec
      ((engine sdk).serve φ i) db h x db' → SameHeads db.tables db'.tables := by
  have hstore₀ : store₀.At env g := by
    have hany : Kept (engine sdk) (Stmt.ForRun env (g.1, g.2)) (fun _ => True) (fun _ => True) :=
      ⟨fun _ _ _ _ _ _ _ _ _ => trivial, fun _ _ _ _ => trivial⟩
    obtain ⟨-, ⟨_, hat, -⟩, -⟩ := (EventStore.confined_new g.2 g.1 now () false).exec hany hnew
      trivial nofun
    exact hat store₀ rfl
  have hmetadata : db.tables.HasMetadata store.runRecord.key
      (described (EventStore.newRun g.1 g.2 now) patches) := by
    rw [hstore.record_eq hstore₀]
    exact describe_metadata hstore₀ hrun (EventStore.exec_new_ok hnew habsent)
  refine ⟨?_, fun patch createdAt h x db' he => EventStore.exec_upsertRun_sameHeads he hmetadata⟩
  intro hopen
  obtain ⟨row, hrow, hdescribed⟩ := hmetadata
  have hread : alone sdk i (query (.selectRun store.runRecord)) store db =
      ((.ok (some row), store), db) := alone_read sdk i store db (by simp [Stmt.exec, hrow])
  have haddress := hstore.address
  subst haddress
  have hscope : row.scope = store.scope := congrArg RunRow.scope hdescribed
  have hrunId : row.runId = store.runId := congrArg RunRow.runId hdescribed
  have hreadRow : alone sdk i EventStore.readRunRow store db = ((.ok (some row), store), db) := by
    unfold EventStore.readRunRow
    simp only [alone_bind, alone_get, aloneThen_ok, hread, alone_lift]
    simp [raiseIf, hscope, hrunId]
  have hensure : alone sdk i EventStore.ensureOpen store db = ((.ok (), store), db) := by
    unfold EventStore.ensureOpen
    simp [raiseIf, hopen]
  have hfields (field : RunRow → Option String) (hfield : ∀ r, field r.metadata = field r) :
      field row = field (described (EventStore.newRun store.scope store.runId now) patches) :=
    (hfield row).symm.trans (congrArg field hdescribed)
  have hnone (a : Option String) : (a <|> none) = a := by cases a <;> rfl
  unfold EventStore.getRun
  simp only [alone_bind, hensure, aloneThen_ok, hreadRow, alone_pure]
  rw [hfields RunRow.parentRunId fun _ => rfl, hfields RunRow.forkedAtEventId fun _ => rfl,
    hfields RunRow.label fun _ => rfl, hfields RunRow.goal fun _ => rfl,
    hfields RunRow.frameId fun _ => rfl, hrunId,
    show row.createdAt = now from congrArg RunRow.createdAt hdescribed]
  simp only [described, EventStore.newRun, hnone]
  rfl

/-- An upsert of the opened run that supplies a label and a time. -/
def upserted : (Except PyErr Unit × EventStore) × Database :=
  alone referenceSdk 0 (EventStore.upsertRun ⟨none, none, some "child", none, none⟩ "first")
    (referenceStore ("s", "r")) openedDatabase

lemma upserted_ok : upserted.1 = (.ok (), referenceStore ("s", "r")) := by decide +kernel

theorem upserts_coalesce_label :
    alone referenceSdk 0 EventStore.getRun (referenceStore ("s", "r")) upserted.2 =
      ((.ok (some ⟨"r", none, none, some "child", "now", none, none⟩), referenceStore ("s", "r")),
        upserted.2) := by
  have hstore : (referenceStore ("s", "r")).At (reference Unit) ("s", "r") := ⟨rfl, rfl⟩
  have hupsert : ∃ h, (EventStore.upsertRun ⟨none, none, some "child", none, none⟩ "first"
      (referenceStore ("s", "r"))).Exec ((engine referenceSdk).serve (faults True False) 0)
      openedDatabase h (.ok (), referenceStore ("s", "r")) upserted.2 := by
    rw [← upserted_ok]
    exact ⟨_, exec_alone _ _⟩
  obtain ⟨h, hupsert⟩ := hupsert
  have hrun := Describe.upsert (.nil openedDatabase) hstore hupsert
  exact (upserts_coalesce exec_openedDatabase rfl hrun hstore).1 rfl

/-- The time that was supplied first is not recorded. -/
theorem supplied_time_ignored :
    upserted.1.1 = .ok () ∧
    (alone referenceSdk 0 EventStore.getRun (referenceStore ("s", "r")) upserted.2).1.1 =
      .ok (some ⟨"r", none, none, some "child", "now", none, none⟩) ∧
    (alone referenceSdk 0 EventStore.getRun (referenceStore ("s", "r")) upserted.2).1.1 ≠
      .ok (some ⟨"r", none, none, some "child", "first", none, none⟩) := by
  decide +kernel

end ActiveGraphSurreal
