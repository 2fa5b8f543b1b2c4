import ActiveGraphSurreal.Proofs.Addressed
import ActiveGraphSurreal.Proofs.Histories

/-!
# Isolation

Whatever is done through a store of one run, every store of another run answers as before.
-/

namespace ActiveGraphSurreal

open Library

set_option linter.unusedSectionVars false

variable {F X : Type} [Json.ScalarText F] {env : Env F X} {sdk : Sdk} {g : String × String}
  {begun : Bool}

/-! ### The lifecycle of a projection -/

namespace GraphStore

variable (env g) in
/-- The method makes statements of the run only. -/
abbrev Bound {α : Type} (begun : Bool) (m : Py GraphStore α) : Prop :=
  KeepsTo (Stmt.Bound env g) (At env g) begun m

lemma Inside.bound {α : Type} {m : Py GraphStore α} (hm : Inside env g begun m) :
    Bound env g begun m := hm.mono fun _ hst => hst.toBound

lemma bound_setProjectionStatus (status : String) (error : Option String) :
    Bound env g begun (setProjectionStatus status error) := by
  unfold setProjectionStatus
  refine KeepsTo.get fun self hself => ?_
  exact keepsTo_query ⟨⟨hself.record, hself.address⟩, trivial⟩

lemma bound_setRebuilding (b : Bool) :
    Bound env g begun (modify fun self => { self with rebuildingHere := b }) :=
  keepsTo_modify fun _ hself => ⟨hself.address, hself.record⟩

lemma bound_beginRebuild : Bound env g begun beginRebuild := by
  unfold beginRebuild
  refine keepsTo_ensureOpen.bind fun _ => (bound_setProjectionStatus _ _).bind fun _ => ?_
  exact (bound_setRebuilding true).bind fun _ => inside_clear.bound

lemma bound_markReady : Bound env g begun markReady := by
  unfold markReady
  refine keepsTo_ensureOpen.bind fun _ => (bound_setProjectionStatus _ _).bind fun _ => ?_
  exact bound_setRebuilding false

lemma bound_markFailed (error : Option (PyErr ⊕ String)) :
    Bound env g begun (markFailed error) := by
  unfold markFailed
  refine keepsTo_ensureOpen.bind fun _ => (bound_setProjectionStatus _ _).bind fun _ => ?_
  exact bound_setRebuilding false

lemma bound_close : Bound env g begun close :=
  keepsTo_modify fun _ hself => ⟨hself.address, hself.record⟩

end GraphStore

/-! ### The methods of an event store -/

/-- The store is bound to the run. -/
structure EventStore.At (env : Env F X) (g : String × String) (store : EventStore) : Prop where
  address : store.address = g
  record : runKey env g = .ok store.runRecord

namespace EventStore

variable (env g) in
/-- The method makes statements of the run only. -/
abbrev Bound {α : Type} (begun : Bool) (m : Py EventStore α) : Prop :=
  KeepsTo (Stmt.Bound env g) (At env g) begun m

lemma bound_ensureOpen : Bound env g begun ensureOpen := KeepsTo.get fun _ _ => keepsTo_lift _

lemma bound_eventRecord {α : Type} {id : String} {f : RecordId .agEvent → Py EventStore α}
    (hf : ∀ event, eventKey env g id = .ok event → Bound env g begun (f event)) :
    Bound env g begun (eventRecord env id >>= f) := by
  intro l b hl hb
  have haddress := hl.address
  subst haddress
  have hlift : Bound env l.address begun
      (lift (recordId env.sha256 .agEvent [l.scope, l.runId, id]) >>= f) := KeepsTo.lift hf
  exact hlift l b hl hb

lemma bound_assertRowScope (row : EventRow) : Bound env g begun (assertRowScope row) :=
  KeepsTo.get fun _ _ => keepsTo_lift _

lemma bound_readRunRow : Bound env g begun readRunRow := by
  unfold readRunRow
  refine KeepsTo.get fun self hself => (keepsTo_query ⟨hself.record, trivial⟩).bind fun row => ?_
  cases row with
  | none => exact keepsTo_pure _
  | some row => exact (keepsTo_lift _).bind fun _ => keepsTo_pure _

lemma bound_transactionRunRow : Bound env g true (transactionRunRow env) := by
  unfold transactionRunRow
  refine KeepsTo.get fun self hself => (keepsTo_txQuery ⟨hself.record, trivial⟩).bind fun row => ?_
  cases row with
  | none => exact keepsTo_throw _
  | some row => exact (keepsTo_lift _).bind fun _ => keepsTo_pure _

lemma bound_assertExpectedHead (head : RunRow) : Bound env g begun (assertExpectedHead env head) :=
  KeepsTo.get fun _ _ => keepsTo_lift _

lemma bound_raiseIfConcurrent (cause : PyErr) : Bound env g begun (raiseIfConcurrent env cause) := by
  unfold raiseIfConcurrent
  refine KeepsTo.get fun self hself => ?_
  exact (KeepsTo.tryCatch bound_readRunRow fun _ => keepsTo_pure _).bind fun _ => keepsTo_lift _

lemma bound_abandon (passed : List ErrClass) (exc : PyErr) :
    Bound env g begun (abandon env passed exc) := by
  unfold abandon
  refine keepsTo_cancelSafely.bind fun _ => (keepsTo_lift _).bind fun _ => ?_
  exact (bound_raiseIfConcurrent exc).bind fun _ => keepsTo_throw exc

lemma bound_observe (head : Int × Option String) : Bound env g begun (observe head) :=
  keepsTo_modify fun _ hself => ⟨hself.address, hself.record⟩

lemma bound_verifiedRowsAndRun : Bound env g begun (verifiedRowsAndRun env) := by
  unfold verifiedRowsAndRun
  refine KeepsTo.get fun self hself => bound_ensureOpen.bind fun _ => ?_
  refine (keepsTo_query ⟨hself.address, trivial⟩).bind fun rows => ?_
  exact bound_readRunRow.bind fun run => keepsTo_lift _

lemma bound_verifyIntegrity : Bound env g begun (verifyIntegrity env) := by
  unfold verifyIntegrity
  exact bound_verifiedRowsAndRun.bind fun _ => keepsTo_pure _

lemma bound_appendTransaction {event : Event F X} {encoded : EventRecord}
    (hid : encoded.eventId = event.id) :
    Bound env g true (appendTransaction env event encoded) := by
  unfold appendTransaction
  refine KeepsTo.get fun self hself => bound_transactionRunRow.bind fun head => ?_
  refine (bound_assertExpectedHead head).bind fun _ => bound_eventRecord fun record hrecord => ?_
  refine (keepsTo_txQuery ⟨⟨_, hrecord⟩, trivial⟩).bind fun existing => ?_
  refine (keepsTo_lift _).bind fun _ => (keepsTo_lift _).bind fun currentHash => ?_
  have hcontent : eventKey env g encoded.eventId = .ok record := by
    rw [hid]
    exact hrecord
  refine (keepsTo_txQuery ⟨⟨hcontent, hself.address⟩, trivial⟩).bind fun _ => ?_
  refine (keepsTo_txQuery ⟨hself.record, trivial⟩).bind fun _ => ?_
  exact keepsTo_commit.bind fun _ => keepsTo_pure _

lemma bound_append (event : Event F X) : Bound env g begun (append env event) := by
  unfold append
  refine KeepsTo.lift fun encoded hencoded => bound_ensureOpen.bind fun _ => KeepsTo.begin ?_
  have hid : encoded.eventId = event.id := by
    obtain ⟨text, -, h⟩ := bind_eq_ok.mp hencoded
    obtain rfl := pure_eq_ok.mp h
    rfl
  exact KeepsTo.tryElse (bound_appendTransaction hid) (bound_abandon _) bound_observe

lemma bound_truncateTransaction (id : String) : Bound env g true (truncateTransaction env id) := by
  unfold truncateTransaction
  refine KeepsTo.get fun self hself => bound_transactionRunRow.bind fun head => ?_
  refine (bound_assertExpectedHead head).bind fun _ => bound_eventRecord fun record hrecord => ?_
  refine (keepsTo_txQuery ⟨⟨_, hrecord⟩, trivial⟩).bind fun cutoff => ?_
  cases cutoff with
  | none => exact keepsTo_throw _
  | some cutoff =>
    refine (bound_assertRowScope cutoff).bind fun _ => ?_
    refine (keepsTo_txQuery ⟨hself.address, trivial⟩).bind fun _ => ?_
    refine (keepsTo_txQuery ⟨hself.record, trivial⟩).bind fun _ => ?_
    exact keepsTo_commit.bind fun _ => keepsTo_pure _

lemma bound_truncateAfter (id : String) : Bound env g begun (truncateAfter env id) := by
  unfold truncateAfter
  refine bound_ensureOpen.bind fun _ => KeepsTo.begin ?_
  exact KeepsTo.tryElse (bound_truncateTransaction id) (bound_abandon _) bound_observe

lemma bound_iterEvents (after until_ : Option String) :
    Bound env g begun (iterEvents env after until_) := by
  unfold iterEvents
  exact KeepsTo.get fun _ _ => bound_verifiedRowsAndRun.bind fun _ => keepsTo_lift _

lemma bound_getEvent (id : String) : Bound env g begun (getEvent env id) := by
  unfold getEvent
  refine bound_ensureOpen.bind fun _ => bound_eventRecord fun record hrecord => ?_
  refine (keepsTo_query ⟨⟨_, hrecord⟩, trivial⟩).bind fun row => ?_
  cases row with
  | none => exact keepsTo_pure _
  | some row =>
    exact (bound_assertRowScope row).bind fun _ => (keepsTo_lift _).bind fun _ => keepsTo_pure _

lemma bound_count : Bound env g begun count := by
  unfold count
  refine KeepsTo.get fun self hself => bound_ensureOpen.bind fun _ => ?_
  exact (keepsTo_query ⟨hself.address, trivial⟩).bind fun _ => keepsTo_pure _

lemma bound_getRun : Bound env g begun getRun := by
  unfold getRun
  refine bound_ensureOpen.bind fun _ => bound_readRunRow.bind fun row => ?_
  cases row with
  | none => exact keepsTo_pure _
  | some row => exact keepsTo_pure _

lemma bound_upsertRun (patch : RunPatch) (createdAt : String) :
    Bound env g begun (upsertRun patch createdAt) := by
  unfold upsertRun
  refine KeepsTo.get fun self hself => bound_ensureOpen.bind fun _ => ?_
  refine bound_readRunRow.bind fun row => ?_
  cases row with
  | none => exact keepsTo_query ⟨⟨hself.record, hself.address⟩, trivial⟩
  | some row =>
    simp only
    split
    · exact keepsTo_pure _
    · exact keepsTo_query ⟨hself.record, trivial⟩

lemma bound_close : Bound env g begun close :=
  keepsTo_modify fun _ hself => ⟨hself.address, hself.record⟩

end EventStore

/-! ### Openings and forks -/

/-- A statement of the schema lifecycle. -/
def Stmt.ForSchema : Stmt → Prop
  | .connect | .selectSchema | .define _ | .createSchema _ | .updateSchemaVersion _
  | .timeNow => True
  | _ => False

def Write.ForSchema : Write → Prop
  | .define _ | .schema _ => True
  | _ => False

lemma exec_forSchema {st : Stmt} (hst : st.ForSchema) {t : Tables} {r : st.Reply}
    {ws : List Write} (hexec : st.exec sdk t = .ok (r, ws)) : ∀ w ∈ ws, w.ForSchema := by
  have hone : ∀ {w : Write}, ws = [w] → w.ForSchema → ∀ w ∈ ws, w.ForSchema := by
    rintro w rfl hw w' hw'
    rw [List.mem_singleton.mp hw']
    exact hw
  have hread : ws = [] → ∀ w ∈ ws, w.ForSchema := by
    rintro rfl w hw
    cases hw
  cases st with
  | connect => exact hread (Prod.mk.inj (Except.ok.inj hexec)).2.symm
  | selectSchema =>
    simp only [Stmt.exec] at hexec
    split at hexec
    · exact hread (Prod.mk.inj (Except.ok.inj hexec)).2.symm
    · cases hexec
  | define ddl =>
    cases ddl with
    | table table =>
      have hws := (Prod.mk.inj (Except.ok.inj hexec)).2
      split at hws
      · exact hread hws.symm
      · exact hone hws.symm trivial
    | field table name type => exact hread (Prod.mk.inj (Except.ok.inj hexec)).2.symm
    | index table name fields isUnique =>
      exact hread (Prod.mk.inj (Except.ok.inj hexec)).2.symm
  | createSchema row =>
    simp only [Stmt.exec] at hexec
    split at hexec
    · cases hexec
    · exact hone (Prod.mk.inj (Except.ok.inj hexec)).2.symm trivial
  | updateSchemaVersion version =>
    simp only [Stmt.exec] at hexec
    split at hexec
    · exact hread (Prod.mk.inj (Except.ok.inj hexec)).2.symm
    · exact hone (Prod.mk.inj (Except.ok.inj hexec)).2.symm trivial
  | timeNow => exact hread (Prod.mk.inj (Except.ok.inj hexec)).2.symm
  | _ => exact hst.elim

variable (env) in
/-- A statement of one of the runs, or of the schema lifecycle. -/
def Stmt.Among (runs : String × String → Prop) (st : Stmt) : Prop :=
  (∃ g, runs g ∧ st.Bound env g) ∨ st.ForSchema

variable (env) in
def Write.Among (runs : String × String → Prop) (w : Write) : Prop :=
  (∃ g, runs g ∧ w.Bound env g) ∨ w.ForSchema

lemma kept_among (hsha : CollisionFree env) (sdk : Sdk) (runs : String × String → Prop) :
    Kept (engine sdk) (Stmt.Among env runs) (Sound env) (Write.Among env runs) where
  exec st t r ws hst ht hexec w hw := by
    rcases hst with ⟨g, hg, hst⟩ | hst
    · exact .inl ⟨g, hg, (kept_bound hsha sdk g).exec st t r ws hst ht hexec w hw⟩
    · exact .inr (exec_forSchema hst hexec w hw)
  apply t w ht hw := by
    rcases hw with ⟨g, -, hw⟩ | hw
    · exact (kept_bound hsha sdk g).apply t w ht hw
    · cases w with
      | define table => exact ⟨⟨ht.run, ht.event, ht.projection, ht.vertex, ht.relation, ht.joined,
          ht.patch⟩, ht.object, ht.rel⟩
      | schema row => exact ⟨⟨ht.run, ht.event, ht.projection, ht.vertex, ht.relation, ht.joined,
          ht.patch⟩, ht.object, ht.rel⟩
      | _ => exact hw.elim

/-- A part of another run stays as it is. -/
lemma part_applyAll_among (hsha : CollisionFree env) {runs : String × String → Prop}
    {ws : List Write} (hws : ∀ w ∈ ws, w.Among env runs) {t : Tables} (ht : Sound env t)
    (hg : ¬ runs g) : ((engine sdk).applyAll ws t).part g = t.part g := by
  induction ws generalizing t with
  | nil => rfl
  | cons w ws ih =>
    have hw : w.Among env runs := hws w (by simp)
    have hrest := ih (fun w' h' => hws w' (by simp [h']))
      ((kept_among hsha sdk runs).apply t w ht hw)
    refine hrest.trans ?_
    rcases hw with ⟨g', hg', hw⟩ | hw
    · exact part_apply_other hsha ht.toPlaced hw.within fun h => hg (h ▸ hg')
    · cases w with
      | define table => rfl
      | schema row => rfl
      | _ => exact hw.elim

section openings

variable {ℓ : Type} {I : ℓ → Prop} {P : Stmt → Prop}

lemma keepsTo_schemaQuery (hP : ∀ st : Stmt, st.ForSchema → P st) (st : Stmt)
    (hst : st.ForSchema) : KeepsTo P I begun (query st : Py ℓ st.Reply) :=
  keepsTo_query (hP st hst)

lemma keepsTo_defineAll (hP : ∀ st : Stmt, st.ForSchema → P st) (statements : List Ddl) :
    KeepsTo P I begun (defineAll statements) := by
  induction statements with
  | nil => exact keepsTo_pure _
  | cons statement statements ih =>
    unfold defineAll
    exact (keepsTo_schemaQuery hP (.define statement) trivial).bind fun _ => ih

lemma keepsTo_createSchemaRecord (hP : ∀ st : Stmt, st.ForSchema → P st) (supported : Int) :
    KeepsTo P I begun (createSchemaRecord supported) := by
  unfold createSchemaRecord
  have hselect : KeepsTo P I begun (query .selectSchema) := keepsTo_schemaQuery hP _ trivial
  refine KeepsTo.tryElse ?_ (fun e => ?_) fun _ => hselect
  · refine (keepsTo_schemaQuery hP .timeNow trivial).bind fun installedAt => ?_
    exact keepsTo_schemaQuery hP _ trivial
  · exact hselect.bind fun _ => (keepsTo_lift _).bind fun _ => keepsTo_pure _

lemma keepsTo_definitions (hP : ∀ st : Stmt, st.ForSchema → P st) (supported : Int) :
    KeepsTo P I begun (do
      defineAll schemaStatements
      match ← installedSchema supported with
      | none => throw missingSchema
      | some current => upgradeSchema supported current) := by
  have hread : KeepsTo P I begun (query .selectSchema) := keepsTo_schemaQuery hP _ trivial
  have hinstalled : KeepsTo P I begun (installedSchema supported) := by
    unfold installedSchema
    refine hread.bind fun current => ?_
    cases current with
    | none => exact keepsTo_createSchemaRecord hP supported
    | some row => exact keepsTo_pure _
  have hupgrade : ∀ row, KeepsTo P I begun (upgradeSchema supported row) := by
    intro row
    unfold upgradeSchema
    refine (keepsTo_lift _).bind fun _ => ?_
    split
    · refine (keepsTo_schemaQuery hP (.updateSchemaVersion supported) trivial).bind ?_
      exact fun _ => keepsTo_pure _
    · exact keepsTo_pure _
  refine (keepsTo_defineAll hP _).bind fun _ => hinstalled.bind fun current => ?_
  cases current with
  | none => exact keepsTo_throw _
  | some row => exact hupgrade row

lemma keepsTo_ensureSchema (hP : ∀ st : Stmt, st.ForSchema → P st) (supported : Int)
    (schemaReady : Bool) : KeepsTo P I begun (ensureSchema supported schemaReady) := by
  have hread : KeepsTo P I begun (query .selectSchema) := keepsTo_schemaQuery hP _ trivial
  have hselect : KeepsTo P I begun selectExistingSchema := by
    unfold selectExistingSchema
    refine KeepsTo.tryCatch hread fun e => ?_
    split
    · exact keepsTo_pure _
    · exact keepsTo_throw _
  unfold ensureSchema
  cases schemaReady with
  | true => exact keepsTo_pure _
  | false =>
    refine hselect.bind fun existing => ?_
    cases existing with
    | none => exact keepsTo_definitions hP supported
    | some row => exact (keepsTo_lift _).bind fun _ => keepsTo_definitions hP supported

end openings

/-! ### Constructors -/

section constructors

variable {α β ℓ : Type} {P : Stmt → Prop} {R : Bool → Except PyErr β × ℓ → Prop}
  {M : Bool → Except PyErr α × ℓ → Prop} {b : Bool} {l : ℓ}

lemma confined_bind {m : Py ℓ α} {f : α → Py ℓ β} (hm : Confined P M b (m l))
    (hok : ∀ b a l, M b (.ok a, l) → Confined P R b (f a l))
    (herror : ∀ b e l, M b (.error e, l) → R b (.error e, l)) :
    Confined P R b ((m >>= f) l) := by
  apply confined_bind_iff.mpr
  refine hm.mono (fun _ => id) ?_
  rintro b ⟨e | a, l⟩ h
  · exact herror b e l h
  · exact hok b a l h

lemma confined_tryCatch {m : Py ℓ β} {f : PyErr → Py ℓ β}
    {M : Bool → Except PyErr β × ℓ → Prop} (hm : Confined P M b (m l))
    (hok : ∀ b a l, M b (.ok a, l) → R b (.ok a, l))
    (herror : ∀ b e l, M b (.error e, l) → Confined P R b (f e l)) :
    Confined P R b ((tryCatch m f : Py ℓ β) l) := by
  apply confined_bind_iff.mpr
  refine hm.mono (fun _ => id) ?_
  rintro b ⟨e | a, l⟩ h
  · exact herror b e l h
  · exact hok b a l h

lemma confined_lift {x : Except PyErr β} (h : R b (x, l)) : Confined P R b (lift x l) := by
  cases x with
  | error e => exact h
  | ok a => exact h

lemma confined_modify {R : Bool → Except PyErr Unit × ℓ → Prop} {f : ℓ → ℓ}
    (h : R b (.ok (), f l)) : Confined P R b ((modify f : Py ℓ Unit) l) := h

lemma confined_query {st : Stmt} {R : Bool → Except PyErr st.Reply × ℓ → Prop} (hst : P st)
    (h : ∀ r, R b (r, l)) : Confined P R b ((query st : Py ℓ st.Reply) l) := ⟨hst, h⟩

end constructors

/-- What is known of a new store: it is bound to its run. -/
def Opened {β ℓ : Type} (at_ : ℓ → Prop) (_ : Bool) (x : Except PyErr β × ℓ) : Prop :=
  ∀ a, x.1 = .ok a → at_ x.2

lemma opened_error {β ℓ : Type} {at_ : ℓ → Prop} {b : Bool} {e : PyErr} {l : ℓ} :
    Opened at_ b ((.error e, l) : Except PyErr β × ℓ) := nofun

/-- The statements of a constructor. -/
abbrev Stmt.ForRun (env : Env F X) (g : String × String) : Stmt → Prop := Stmt.Among env (· = g)

lemma forRun_bound {g : String × String} {st : Stmt} (h : st.Bound env g) : st.ForRun env g :=
  .inl ⟨g, rfl, h⟩

lemma forRun_schema {g : String × String} {st : Stmt} (h : st.ForSchema) : st.ForRun env g :=
  .inr h

lemma EventStore.keepsTo_ensureRun (now : String) :
    KeepsTo (Stmt.ForRun env g) (EventStore.At env g) begun (EventStore.ensureRun now) := by
  have hread : KeepsTo (Stmt.ForRun env g) (EventStore.At env g) begun EventStore.readRunRow :=
    EventStore.bound_readRunRow.mono fun _ => forRun_bound
  unfold EventStore.ensureRun
  refine KeepsTo.get fun self hself => hread.bind fun row => ?_
  cases row with
  | some row => exact keepsTo_pure _
  | none =>
    refine KeepsTo.tryCatch (keepsTo_query (forRun_bound ⟨⟨hself.record, hself.address⟩, trivial⟩))
      fun e => ?_
    exact hread.bind fun _ => keepsTo_lift _

lemma EventStore.confined_construct (runId scope now : String) (store : EventStore) (b : Bool) :
    Confined (Stmt.ForRun env (scope, runId)) (Opened (EventStore.At env (scope, runId))) b
      (EventStore.construct env runId scope now store) := by
  unfold EventStore.construct
  refine confined_bind (M := fun _ _ => True) (confined_lift trivial) ?_ fun _ _ _ _ => opened_error
  intro b _ store _
  refine confined_bind (M := fun _ _ => True) (confined_lift trivial) ?_ fun _ _ _ _ => opened_error
  intro b _ store _
  refine confined_bind (M := fun _ x => x.2.address = (scope, runId)) (confined_modify rfl) ?_
    fun _ _ _ _ => opened_error
  intro b _ store hstore
  refine confined_bind (M := fun _ x => x.2.address = (scope, runId))
    (confined_query (forRun_schema trivial) fun _ => hstore) ?_ fun _ _ _ _ => opened_error
  intro b _ store hstore
  refine confined_tryCatch (M := Opened (EventStore.At env (scope, runId))) ?_
    (fun _ _ _ => id) ?_
  · have hschema : KeepsTo (Stmt.ForRun env (scope, runId))
        (fun store : EventStore => store.address = (scope, runId)) false
        (ensureSchema schemaVersion false) :=
      keepsTo_ensureSchema (fun _ => forRun_schema) schemaVersion false
    refine confined_bind (hschema store b hstore nofun) ?_ fun _ _ _ _ => opened_error
    rintro b _ store ⟨-, hstore⟩
    refine confined_bind (M := fun _ x => x.2.address = (scope, runId) ∧
      ∀ record, x.1 = .ok record → runKey env (scope, runId) = .ok record)
      (confined_lift ⟨hstore, fun _ => id⟩) ?_ fun _ _ _ _ => opened_error
    rintro b record store ⟨hstore, hrecord⟩
    refine confined_bind (M := fun _ x => x.2.At env (scope, runId))
      (confined_modify ⟨hstore, hrecord record rfl⟩) ?_ fun _ _ _ _ => opened_error
    intro b _ store hat
    have hrest : KeepsTo (Stmt.ForRun env (scope, runId)) (EventStore.At env (scope, runId)) false
        (do
          EventStore.ensureRun now
          let report ← EventStore.verifyIntegrity env
          modify fun self => { self with
            expectedNextSeq := report.nextSeq
            expectedHeadHash := report.headHash }) := by
      refine (EventStore.keepsTo_ensureRun now).bind fun _ => ?_
      refine (EventStore.bound_verifyIntegrity.mono fun _ => forRun_bound).bind fun report => ?_
      exact keepsTo_modify fun _ hself => ⟨hself.address, hself.record⟩
    exact (hrest store b hat nofun).mono (fun _ => id) fun b x hx a _ => hx.2
  · intro b e store _
    exact opened_error

lemma GraphStore.keepsTo_ensureProjectionRecord :
    KeepsTo (Stmt.ForRun env g) (GraphStore.At env g) begun GraphStore.ensureProjectionRecord := by
  have hread : KeepsTo (Stmt.ForRun env g) (GraphStore.At env g) begun GraphStore.projectionRow :=
    GraphStore.inside_projectionRow.bound.mono fun _ => forRun_bound
  unfold GraphStore.ensureProjectionRecord
  refine KeepsTo.get fun self hself => hread.bind fun row => ?_
  cases row with
  | some row => exact keepsTo_pure _
  | none =>
    refine KeepsTo.tryCatch (keepsTo_query (forRun_bound ⟨⟨hself.record, hself.address⟩, trivial⟩))
      fun e => ?_
    exact hread.bind fun _ => keepsTo_lift _

lemma GraphStore.confined_construct (runId scope : String) (store : GraphStore) (b : Bool) :
    Confined (Stmt.ForRun env (scope, runId)) (Opened (GraphStore.At env (scope, runId))) b
      (GraphStore.construct env runId scope store) := by
  unfold GraphStore.construct
  refine confined_bind (M := fun _ _ => True) (confined_lift trivial) ?_ fun _ _ _ _ => opened_error
  intro b _ store _
  refine confined_bind (M := fun _ _ => True) (confined_lift trivial) ?_ fun _ _ _ _ => opened_error
  intro b _ store _
  refine confined_bind (M := fun _ x => x.2.address = (scope, runId)) (confined_modify rfl) ?_
    fun _ _ _ _ => opened_error
  intro b _ store hstore
  refine confined_bind (M := fun _ x => x.2.address = (scope, runId))
    (confined_query (forRun_schema trivial) fun _ => hstore) ?_ fun _ _ _ _ => opened_error
  intro b _ store hstore
  refine confined_tryCatch (M := Opened (GraphStore.At env (scope, runId))) ?_
    (fun _ _ _ => id) ?_
  · have hschema : KeepsTo (Stmt.ForRun env (scope, runId))
        (fun store : GraphStore => store.address = (scope, runId)) false
        (ensureSchema schemaVersion false) :=
      keepsTo_ensureSchema (fun _ => forRun_schema) schemaVersion false
    refine confined_bind (hschema store b hstore nofun) ?_ fun _ _ _ _ => opened_error
    rintro b _ store ⟨-, hstore⟩
    refine confined_bind (M := fun _ x => x.2.address = (scope, runId) ∧
      ∀ record, x.1 = .ok record → projectionKey env (scope, runId) = .ok record)
      (confined_lift ⟨hstore, fun _ => id⟩) ?_ fun _ _ _ _ => opened_error
    rintro b record store ⟨hstore, hrecord⟩
    refine confined_bind (M := fun _ x => x.2.At env (scope, runId))
      (confined_modify ⟨hstore, hrecord record rfl⟩) ?_ fun _ _ _ _ => opened_error
    intro b _ store hat
    have hrest : KeepsTo (Stmt.ForRun env (scope, runId)) (GraphStore.At env (scope, runId)) false
        GraphStore.ensureProjectionRecord := GraphStore.keepsTo_ensureProjectionRecord
    exact (hrest store b hat nofun).mono (fun _ => id) fun b x hx a _ => hx.2
  · intro b e store _
    exact opened_error

/-- `new` leaves the state of its caller. -/
lemma EventStore.confined_new {ℓ : Type} (runId scope now : String) (l : ℓ) (b : Bool) :
    Confined (Stmt.ForRun env (scope, runId)) (fun _ x =>
      (∀ store, x.1 = .ok store → store.At env (scope, runId)) ∧ x.2 = l) b
      (EventStore.new env runId scope now l) := by
  apply confined_bind_iff.mpr
  refine (EventStore.confined_construct runId scope now _ b).mono (fun _ => id) ?_
  rintro b ⟨e | u, store⟩ h
  · exact ⟨nofun, rfl⟩
  · refine ⟨?_, rfl⟩
    rintro store' hstore
    obtain rfl := Except.ok.inj hstore
    exact h () rfl

lemma GraphStore.confined_new {ℓ : Type} (runId scope : String) (l : ℓ) (b : Bool) :
    Confined (Stmt.ForRun env (scope, runId)) (fun _ x =>
      (∀ store, x.1 = .ok store → store.At env (scope, runId)) ∧ x.2 = l) b
      (GraphStore.new env runId scope l) := by
  apply confined_bind_iff.mpr
  refine (GraphStore.confined_construct runId scope _ b).mono (fun _ => id) ?_
  rintro b ⟨e | u, store⟩ h
  · exact ⟨nofun, rfl⟩
  · refine ⟨?_, rfl⟩
    rintro store' hstore
    obtain rfl := Except.ok.inj hstore
    exact h () rfl

/-! ### Forks -/

/-- The two runs of a fork. -/
def ForkRuns (g : String × String) (newRunId : String) (g' : String × String) : Prop :=
  g' = g ∨ g' = (g.1, newRunId)

lemma childEvents_addressed {scope newRunId : String} {seq : Nat} {prev head : Option String}
    {events : List (Event F X)} {rows : List (RecordId .agEvent × EventRow)}
    (h : EventStore.childEvents env scope newRunId seq prev events = .ok (rows, head)) :
    ∀ row ∈ rows, eventKey env (scope, newRunId) row.2.eventId = .ok row.1 ∧
      (row.2.scope, row.2.runId) = (scope, newRunId) := by
  induction events generalizing seq prev rows head with
  | nil =>
    obtain ⟨rfl, -⟩ := Prod.mk.inj (pure_eq_ok.mp h)
    simp
  | cons event events ih =>
    obtain ⟨currentHash, -, h⟩ := bind_eq_ok.mp h
    obtain ⟨record, hrecord, h⟩ := bind_eq_ok.mp h
    obtain ⟨encoded, hencoded, h⟩ := bind_eq_ok.mp h
    obtain ⟨⟨rest, head'⟩, hrest, h⟩ := bind_eq_ok.mp h
    obtain ⟨rfl, -⟩ := Prod.mk.inj (pure_eq_ok.mp h)
    obtain ⟨text, -, hencoded⟩ := bind_eq_ok.mp hencoded
    obtain rfl := pure_eq_ok.mp hencoded
    intro row hrow
    rcases List.mem_cons.mp hrow with rfl | hrow
    · exact ⟨hrecord, rfl⟩
    · exact ih hrest row hrow

namespace EventStore

variable {newRunId : String}

lemma fork_own {st : Stmt} (h : st.Bound env g) : st.Among env (ForkRuns g newRunId) :=
  .inl ⟨g, .inl rfl, h⟩

lemma fork_child {st : Stmt} (h : st.Bound env (g.1, newRunId)) :
    st.Among env (ForkRuns g newRunId) := .inl ⟨_, .inr rfl, h⟩

lemma keepsTo_destinationExists :
    KeepsTo (Stmt.Among env (ForkRuns g newRunId)) (At env g) begun
      (destinationExists env newRunId) := by
  unfold destinationExists
  refine KeepsTo.get fun self hself => KeepsTo.lift fun record hrecord => ?_
  have haddress := hself.address
  subst haddress
  have hselect : (Stmt.selectRun record).Among env (ForkRuns self.address newRunId) :=
    fork_child ⟨hrecord, trivial⟩
  exact (keepsTo_query hselect).bind fun _ => keepsTo_pure _

lemma keepsTo_createEvents {rows : List (RecordId .agEvent × EventRow)}
    (hrows : ∀ row ∈ rows, eventKey env (g.1, newRunId) row.2.eventId = .ok row.1 ∧
      (row.2.scope, row.2.runId) = (g.1, newRunId)) :
    KeepsTo (Stmt.Among env (ForkRuns g newRunId)) (At env g) true (createEvents rows) := by
  induction rows with
  | nil => exact keepsTo_pure _
  | cons row rows ih =>
    obtain ⟨record, content⟩ := row
    unfold createEvents
    have hrow : eventKey env (g.1, newRunId) content.eventId = .ok record ∧
        (content.scope, content.runId) = (g.1, newRunId) :=
      hrows (record, content) List.mem_cons_self
    have hcreate : (Stmt.createEvent record content).Bound env (g.1, newRunId) := ⟨hrow, trivial⟩
    replace hcreate : (Stmt.createEvent record content).Among env (ForkRuns g newRunId) :=
      fork_child hcreate
    refine (keepsTo_txQuery hcreate).bind fun _ => ?_
    exact ih fun row hrow => hrows row (List.mem_cons_of_mem _ hrow)

lemma keepsTo_forkTransaction {rows : List EventRow} {parentRow child : RunRow}
    {childRecord : RecordId .agRun} {events : List (RecordId .agEvent × EventRow)}
    (hrecord : runKey env (g.1, newRunId) = .ok childRecord)
    (hchild : (child.scope, child.runId) = (g.1, newRunId))
    (hrows : ∀ row ∈ events, eventKey env (g.1, newRunId) row.2.eventId = .ok row.1 ∧
      (row.2.scope, row.2.runId) = (g.1, newRunId)) :
    KeepsTo (Stmt.Among env (ForkRuns g newRunId)) (At env g) true
      (forkTransaction env newRunId rows parentRow child childRecord events) := by
  have hselect : (Stmt.selectRun childRecord).Among env (ForkRuns g newRunId) :=
    fork_child ⟨hrecord, trivial⟩
  have hcreate : (Stmt.createRun childRecord child).Among env (ForkRuns g newRunId) :=
    fork_child ⟨⟨hrecord, hchild⟩, trivial⟩
  unfold forkTransaction
  refine KeepsTo.get fun self hself => ?_
  have hmerge : (Stmt.mergeHead self.runRecord parentRow.nextSeq parentRow.headHash).Among env
      (ForkRuns g newRunId) := fork_own ⟨hself.record, trivial⟩
  refine (bound_transactionRunRow.mono fun _ => fork_own).bind fun currentParent => ?_
  refine (keepsTo_lift _).bind fun _ => ?_
  refine (keepsTo_txQuery hselect).bind fun existing => ?_
  refine (keepsTo_lift _).bind fun _ => ?_
  refine (keepsTo_txQuery hmerge).bind fun _ => (keepsTo_txQuery hcreate).bind fun _ => ?_
  exact (keepsTo_createEvents hrows).bind fun _ => keepsTo_commit

lemma keepsTo_abandonFork (exc : PyErr) :
    KeepsTo (Stmt.Among env (ForkRuns g newRunId)) (At env g) begun
      (abandonFork env newRunId exc) := by
  unfold abandonFork
  refine keepsTo_cancelSafely.bind fun _ => (keepsTo_lift _).bind fun _ => ?_
  refine keepsTo_destinationExists.bind fun _ => (keepsTo_lift _).bind fun _ => ?_
  exact ((bound_raiseIfConcurrent exc).mono fun _ => fork_own).bind fun _ => keepsTo_throw _

/-- A fork stays in its two runs. -/
theorem keepsTo_forkPrefix (newRunId atEventId : String) (label : Option String)
    (now now' : String) :
    KeepsTo (Stmt.Among env (ForkRuns g newRunId)) (At env g) begun
      (forkPrefix env newRunId atEventId label now now') := by
  unfold forkPrefix
  refine KeepsTo.get fun self hself => (bound_ensureOpen.mono fun _ => fork_own).bind fun _ => ?_
  refine (bound_verifiedRowsAndRun.mono fun _ => fork_own).bind fun verified => ?_
  refine ((bound_assertExpectedHead _).mono fun _ => fork_own).bind fun _ => ?_
  refine (keepsTo_lift _).bind fun _ => ?_
  have haddress := hself.address
  subst haddress
  cases hkept : prefixRows atEventId verified.1 with
  | none => exact keepsTo_throw _
  | some kept =>
    refine keepsTo_destinationExists.bind fun taken => (keepsTo_lift _).bind fun _ => ?_
    refine (keepsTo_lift _).bind fun events => KeepsTo.lift fun childRecord hrecord => ?_
    refine KeepsTo.lift fun rowsOfChild hrows => KeepsTo.begin ?_
    refine KeepsTo.tryElse (keepsTo_forkTransaction hrecord rfl (childEvents_addressed hrows))
      keepsTo_abandonFork fun _ => ?_
    intro store b hstore hb
    refine (confined_new newRunId self.scope now' store b).begun.mono ?_ ?_
    · rintro st (⟨g', rfl, hst⟩ | hst)
      · exact fork_child hst
      · exact .inr hst
    · rintro b' x ⟨hb', -, hx⟩
      refine ⟨hb', ?_⟩
      rw [hx]
      exact hstore

end EventStore

end ActiveGraphSurreal
