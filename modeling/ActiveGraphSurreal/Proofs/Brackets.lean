import ActiveGraphSurreal.Library.Answers
import ActiveGraphSurreal.Library.Typestate
import ActiveGraphSurreal.Proofs.Provider

/-!
# Transactions are bracketed

An operation of the provider begins a transaction, makes its statements in it and commits it or
withdraws it, with no other call in between. After the first failure in a transaction the next
call is its withdrawal.
-/

namespace ActiveGraphSurreal

open Library

set_option linter.unusedSectionVars false

variable {F X : Type} [Json.ScalarText F] {env : Env F X} {ℓ α β σ : Type}

/-- Where a client is with its transaction. -/
inductive TxState where
  | outside
  | inside
  | failed
  deriving DecidableEq

/-- The statement writes no status of a projection. -/
def Stmt.OffStatus : Stmt → Prop
  | createProjection .. | upsertProjection .. => False
  | _ => True

/-- The statement gives a projection no other status. -/
def Stmt.Sets (status : String) (st : Stmt) : Prop :=
  st.OffStatus ∨ ∃ record content, st = .upsertProjection record content ∧ content.status = status

/-- The statement changes no status that a projection has. -/
def Stmt.Creates (st : Stmt) : Prop :=
  st.OffStatus ∨ ∃ record content, st = .createProjection record content

/-- How transactions are used. No status is written in one. -/
def bracketed : Typestate Call Answer TxState where
  allows
    | .inside, .txQuery st => st.OffStatus
    | .outside, .query _ | .outside, .begin | .inside, .commit | .inside, .cancel
    | .failed, .cancel => True
    | _, _ => False
  next
    | t, .query _, _ => t
    | _, .begin, .ok _ => .inside
    | t, .begin, .error _ => t
    | t, .txQuery _, .ok _ => t
    | _, .txQuery _, .error _ => .failed
    | _, .commit, .ok _ => .outside
    | _, .commit, .error _ => .failed
    | _, .cancel, _ => .outside

/-- Outside of a transaction the call is one of `P`. -/
def Queries (P : Stmt → Prop) : Call → Prop
  | .query st => P st
  | _ => True

/-- How transactions are used by what makes queries of a kind outside of them. -/
def bracketing (P : Stmt → Prop) : Typestate Call Answer TxState where
  allows t c := bracketed.allows t c ∧ Queries P c
  next := bracketed.next

/-- The method leaves no transaction open. -/
abbrev Closes (P : Stmt → Prop) (m : Py ℓ α) : Prop :=
  Method.Takes (bracketing P) .outside .outside (· = .outside) m

/-- The method leaves no transaction open and writes no status. -/
abbrev OffStatus (m : Py ℓ α) : Prop := Closes Stmt.OffStatus m

/-- The method works in an open transaction. -/
abbrev Works (m : Py ℓ α) : Prop :=
  Method.Takes (bracketing Stmt.OffStatus) .inside .inside (· ≠ .outside) m

/-- The method works in an open transaction and commits it. -/
abbrev Commits (m : Py ℓ α) : Prop :=
  Method.Takes (bracketing Stmt.OffStatus) .inside .outside (· ≠ .outside) m

variable {P P' : Stmt → Prop}

lemma keeps_bracketed {Q : TxState → α → Prop} {p : Prog Call Answer α} {t : TxState}
    (hp : p.Keeps (bracketing P) Q t) : p.Keeps bracketed Q t := by
  refine Prog.Keeps.weaken ?_ ?_ hp
  · intro t c hallowed
    exact hallowed.1
  · intro t c r
    rfl

lemma keeps_queries {Q : TxState → α → Prop} (hP : ∀ st, P st → P' st) {p : Prog Call Answer α}
    {t : TxState} (hp : p.Keeps (bracketing P) Q t) : p.Keeps (bracketing P') Q t := by
  refine Prog.Keeps.weaken ?_ ?_ hp
  · intro t c hallowed
    refine ⟨hallowed.1, ?_⟩
    cases c with
    | query st => exact hP st hallowed.2
    | _ => trivial
  · intro t c r
    rfl

/-! ### Calls -/

lemma closes_lift (x : Except PyErr α) : Closes P (lift x : Py ℓ α) := Method.takes_lift x rfl

lemma closes_throw (e : PyErr) : Closes P (throw e : Py ℓ α) := Method.takes_throw e rfl

lemma closes_pure (x : α) : Closes P (pure x : Py ℓ α) := Method.takes_pure x

lemma closes_modify (f : ℓ → ℓ) : Closes P (modify f : Py ℓ Unit) := Method.takes_modify f

lemma closes_query (st : Stmt) (hst : P st) : Closes P (query st : Py ℓ st.Reply) := by
  intro l
  refine ⟨⟨trivial, hst⟩, fun r => ?_⟩
  cases r with
  | error e => rfl
  | ok a => rfl

lemma OffStatus.closes {m : Py ℓ α} (hm : OffStatus m) (hP : ∀ st : Stmt, st.OffStatus → P st) :
    Closes P m := fun l => keeps_queries hP (hm l)

lemma takes_begin : Method.Takes (bracketing Stmt.OffStatus) .outside .inside (· = .outside)
    (beginTransaction : Py ℓ Unit) := by
  intro l
  refine ⟨⟨trivial, trivial⟩, fun r => ?_⟩
  cases r with
  | error e => rfl
  | ok a => rfl

lemma works_lift (x : Except PyErr α) : Works (lift x : Py ℓ α) := Method.takes_lift x nofun

lemma works_txQuery (st : Stmt) (hst : st.OffStatus) : Works (txQuery st : Py ℓ st.Reply) := by
  intro l
  refine ⟨⟨hst, trivial⟩, fun r => ?_⟩
  cases r with
  | error e => exact nofun
  | ok a => rfl

lemma commits_commit : Commits (commit : Py ℓ Unit) := by
  intro l
  refine ⟨⟨trivial, trivial⟩, fun r => ?_⟩
  cases r with
  | error e => exact nofun
  | ok a => rfl

lemma takes_cancel {t : TxState} (ht : t ≠ .outside) :
    Method.Takes (bracketing Stmt.OffStatus) t .outside (· = .outside)
      (cancelSafely : Py ℓ Unit) := by
  intro l
  refine ⟨⟨?_, trivial⟩, fun r => rfl⟩
  cases t with
  | outside => exact absurd rfl ht
  | inside => trivial
  | failed => trivial

/-! ### The event store -/

lemma closes_ensureSchema (ready : Bool) :
    OffStatus (ensureSchema schemaVersion ready : Py ℓ Int) := by
  have hdefine : ∀ ddl : List Ddl, OffStatus (defineAll ddl : Py ℓ Unit) := by
    intro ddl
    induction ddl with
    | nil => exact closes_pure ()
    | cons statement rest ih => exact (closes_query _ (by trivial)).bind fun _ => ih
  have hselect : OffStatus (selectExistingSchema : Py ℓ (Option SchemaRow)) := by
    refine (closes_query .selectSchema (by trivial)).tryCatch fun e t ht => ?_
    subst ht
    split
    · exact closes_pure none
    · exact closes_throw e
  have hinstalled : OffStatus (installedSchema schemaVersion : Py ℓ (Option SchemaRow)) := by
    refine (closes_query .selectSchema (by trivial)).bind fun current => ?_
    cases current with
    | some row => exact closes_pure (some row)
    | none =>
      refine Method.Takes.tryElse (b := .outside) (E := (· = .outside)) ?_ ?_ fun _ =>
        closes_query .selectSchema (by trivial)
      · exact (closes_query .timeNow (by trivial)).bind fun installedAt =>
          closes_query (.createSchema ⟨schemaVersion, installedAt⟩) (by trivial)
      · intro e t ht
        subst ht
        exact (closes_query .selectSchema (by trivial)).bind fun current =>
          (closes_lift _).bind fun _ => closes_pure current
  have hupgrade (row : SchemaRow) : OffStatus (upgradeSchema schemaVersion row : Py ℓ Int) := by
    refine (closes_lift _).bind fun _ => ?_
    split
    · exact (closes_query (.updateSchemaVersion schemaVersion) (by trivial)).bind fun _ =>
        closes_pure schemaVersion
    · exact closes_pure schemaVersion
  have hlast (next : Option SchemaRow → Py ℓ Int) (hnone : OffStatus (next none))
      (hsome : ∀ row, OffStatus (next (some row))) :
      OffStatus (defineAll schemaStatements >>=
        fun _ => installedSchema schemaVersion >>= next) := by
    refine (hdefine _).bind fun _ => hinstalled.bind fun current => ?_
    cases current with
    | none => exact hnone
    | some row => exact hsome row
  unfold ensureSchema
  split
  · exact closes_pure schemaVersion
  refine hselect.bind fun existing => ?_
  cases existing with
  | none => exact hlast _ (closes_throw _) hupgrade
  | some row => exact (closes_lift _).bind fun _ => hlast _ (closes_throw _) hupgrade

namespace EventStore

lemma closes_ensureOpen : OffStatus ensureOpen := Method.Takes.get fun _ => closes_lift _

lemma closes_readRunRow : OffStatus readRunRow := by
  refine Method.Takes.get fun self => (closes_query _ (by trivial)).bind fun row => ?_
  cases row with
  | none => exact closes_pure none
  | some row => exact (closes_lift _).bind fun _ => closes_pure (some row)

lemma closes_verifiedRowsAndRun : OffStatus (verifiedRowsAndRun env) := by
  refine Method.Takes.get fun self => closes_ensureOpen.bind fun _ => ?_
  refine (closes_query _ (by trivial)).bind fun rows => closes_readRunRow.bind fun run => ?_
  exact closes_lift _

lemma closes_destinationExists (runId : String) : OffStatus (destinationExists env runId) := by
  refine Method.Takes.get fun self => (closes_lift _).bind fun record => ?_
  exact (closes_query _ (by trivial)).bind fun row => closes_pure row.isSome

lemma closes_raiseIfConcurrent (cause : PyErr) : OffStatus (raiseIfConcurrent env cause) := by
  refine Method.Takes.get fun self => ?_
  refine Method.Takes.bind (closes_readRunRow.tryCatch fun e t ht => ?_) fun current => ?_
  · subst ht
    exact closes_pure none
  · exact closes_lift _

lemma takes_abandon (passed : List ErrClass) (exc : PyErr) {t : TxState} (ht : t ≠ .outside) :
    Method.Takes (bracketing Stmt.OffStatus) t .outside (· = .outside)
      (abandon env passed exc) := by
  refine (takes_cancel ht).bind fun _ => (closes_lift _).bind fun _ => ?_
  exact (closes_raiseIfConcurrent exc).bind fun _ => closes_throw exc

lemma works_transactionRunRow : Works (transactionRunRow env) := by
  refine Method.Takes.get fun self => (works_txQuery _ (by trivial)).bind fun row => ?_
  cases row with
  | none => exact Method.takes_throw _ nofun
  | some row => exact (works_lift _).bind fun _ => Method.takes_pure row

lemma works_assertExpectedHead (head : RunRow) : Works (assertExpectedHead env head) :=
  Method.Takes.get fun _ => works_lift _

lemma works_eventRecord (eventId : String) : Works (eventRecord env eventId) :=
  Method.Takes.get fun _ => works_lift _

lemma closes_append (event : Event F X) : OffStatus (append env event) := by
  have hbody (encoded : EventRecord) : Commits (appendTransaction env event encoded) := by
    refine Method.Takes.get fun self => works_transactionRunRow.bind fun head => ?_
    refine (works_assertExpectedHead head).bind fun _ => (works_eventRecord _).bind fun record => ?_
    refine (works_txQuery _ (by trivial)).bind fun existing => (works_lift _).bind fun _ => ?_
    refine (works_lift _).bind fun currentHash => ?_
    refine (works_txQuery _ (by trivial)).bind fun _ => ?_
    refine (works_txQuery _ (by trivial)).bind fun _ => ?_
    exact commits_commit.bind fun _ => Method.takes_pure _
  refine (closes_lift _).bind fun encoded => closes_ensureOpen.bind fun _ => ?_
  refine takes_begin.bind fun _ => Method.Takes.tryElse (hbody encoded) ?_ fun head => ?_
  · exact fun exc t ht => takes_abandon _ exc ht
  · exact closes_modify _

lemma closes_truncateAfter (eventId : String) : OffStatus (truncateAfter env eventId) := by
  have hbody : Commits (truncateTransaction env eventId) := by
    refine Method.Takes.get fun self => works_transactionRunRow.bind fun head => ?_
    refine (works_assertExpectedHead head).bind fun _ => (works_eventRecord _).bind fun record => ?_
    refine (works_txQuery _ (by trivial)).bind fun cutoff => ?_
    cases cutoff with
    | none => exact Method.takes_throw _ nofun
    | some cutoff =>
      refine Method.Takes.bind (Method.Takes.get fun _ => works_lift _) fun _ => ?_
      refine (works_txQuery _ (by trivial)).bind fun _ => ?_
      refine (works_txQuery _ (by trivial)).bind fun _ => ?_
      exact commits_commit.bind fun _ => Method.takes_pure _
  refine closes_ensureOpen.bind fun _ => takes_begin.bind fun _ => ?_
  refine Method.Takes.tryElse hbody (fun exc t ht => takes_abandon _ exc ht) fun head => ?_
  exact closes_modify _

lemma closes_construct (runId scope now : String) : OffStatus (construct env runId scope now) := by
  have hrun : OffStatus (ensureRun now) := by
    refine Method.Takes.get fun self => closes_readRunRow.bind fun row => ?_
    cases row with
    | some row => exact closes_pure ()
    | none =>
      refine (closes_query _ (by trivial)).tryCatch fun e t ht => ?_
      subst ht
      exact closes_readRunRow.bind fun row => closes_lift _
  refine (closes_lift _).bind fun _ => (closes_lift _).bind fun _ => ?_
  refine (closes_modify _).bind fun _ => (closes_query _ (by trivial)).bind fun _ => ?_
  refine Method.Takes.tryCatch (E := (· = TxState.outside)) ?_ fun e t ht => ?_
  · refine (closes_ensureSchema _).bind fun _ => (closes_lift _).bind fun record => ?_
    refine (closes_modify _).bind fun _ => hrun.bind fun _ => ?_
    refine Method.Takes.bind ?_ fun report => closes_modify _
    exact closes_verifiedRowsAndRun.bind fun x => closes_pure _
  · subst ht
    exact (closes_modify _).bind fun _ => closes_throw e

lemma closes_new (runId scope now : String) :
    OffStatus (new env runId scope now : Py ℓ EventStore) := by
  intro l
  apply Prog.keeps_bind_iff.mpr
  refine (closes_construct runId scope now blank).mono ?_
  rintro t ⟨e | u, self⟩ ht
  · exact ht
  · exact ht

lemma closes_forkPrefix (newRunId atEventId : String) (label : Option String) (now now' : String) :
    OffStatus (forkPrefix env newRunId atEventId label now now') := by
  have hcreate : ∀ rows, Works (createEvents rows : Py EventStore Unit) := by
    intro rows
    induction rows with
    | nil => exact Method.takes_pure ()
    | cons row rows ih => exact (works_txQuery _ (by trivial)).bind fun _ => ih
  have hbody (rows : List EventRow) (parentRow child : RunRow) (childRecord : RecordId .agRun)
      (events : List (RecordId .agEvent × EventRow)) :
      Commits (forkTransaction env newRunId rows parentRow child childRecord events) := by
    refine Method.Takes.get fun self => works_transactionRunRow.bind fun currentParent => ?_
    refine (works_lift _).bind fun _ => (works_txQuery _ (by trivial)).bind fun existing => ?_
    refine (works_lift _).bind fun _ => (works_txQuery _ (by trivial)).bind fun _ => ?_
    refine (works_txQuery _ (by trivial)).bind fun _ => ?_
    exact (hcreate events).bind fun _ => commits_commit
  refine Method.Takes.get fun self => closes_ensureOpen.bind fun _ => ?_
  refine closes_verifiedRowsAndRun.bind ?_
  rintro ⟨rows, parentRow⟩
  refine Method.Takes.bind (Method.Takes.get fun _ => closes_lift _) fun _ => ?_
  refine (closes_lift _).bind fun _ => ?_
  cases hrows : prefixRows atEventId rows with
  | none => exact closes_throw _
  | some kept =>
    refine (closes_destinationExists _).bind fun taken => (closes_lift _).bind fun _ => ?_
    refine (closes_lift _).bind fun events => (closes_lift _).bind fun childRecord => ?_
    refine (closes_lift _).bind ?_
    rintro ⟨rowsOfChild, headHash⟩
    refine takes_begin.bind fun _ => ?_
    refine Method.Takes.tryElse (hbody _ _ _ _ _) (fun exc t ht => ?_) fun _ => ?_
    · refine (takes_cancel ht).bind fun _ => (closes_lift _).bind fun _ => ?_
      refine (closes_destinationExists _).bind fun taken => (closes_lift _).bind fun _ => ?_
      exact (closes_raiseIfConcurrent exc).bind fun _ => closes_throw exc
    · exact closes_new newRunId self.scope now'

lemma closes_getEvent (eventId : String) : OffStatus (getEvent env eventId) := by
  refine closes_ensureOpen.bind fun _ => ?_
  refine Method.Takes.bind (Method.Takes.get fun _ => closes_lift _) fun record => ?_
  refine (closes_query _ (by trivial)).bind fun row => ?_
  cases row with
  | none => exact closes_pure none
  | some row =>
    refine Method.Takes.bind (Method.Takes.get fun _ => closes_lift _) fun _ => ?_
    exact (closes_lift _).bind fun event => closes_pure (some event)

lemma closes_iterEvents (after until_ : Option String) : OffStatus (iterEvents env after until_) :=
  Method.Takes.get fun _ => closes_verifiedRowsAndRun.bind fun _ => closes_lift _

lemma closes_getRun : OffStatus getRun := by
  refine closes_ensureOpen.bind fun _ => closes_readRunRow.bind fun row => ?_
  cases row with
  | none => exact closes_pure none
  | some row => exact closes_pure _

lemma closes_upsertRun (patch : RunPatch) (createdAt : String) :
    OffStatus (upsertRun patch createdAt) := by
  refine Method.Takes.get fun self => closes_ensureOpen.bind fun _ => ?_
  refine closes_readRunRow.bind fun row => ?_
  cases row with
  | none => exact closes_query _ (by trivial)
  | some row =>
    have hpatch : OffStatus (if patch = ⟨none, none, none, none, none⟩ then pure ()
        else query (.mergeRun self.runRecord patch) : Py EventStore Unit) := by
      split
      · exact closes_pure ()
      · exact closes_query _ (by trivial)
    exact hpatch

end EventStore

lemma EventOp.closes_code (l : Option (Handle F)) (op : EventOp F X) :
    (op.code env l).Keeps (bracketing Stmt.OffStatus) (fun t _ => t = .outside) .outside := by
  have hstore {α : Type} {m : Py EventStore α} (hm : OffStatus m) (f : α → EventValue F X)
      (store : EventStore) :
      (onStore m f store).Keeps (bracketing Stmt.OffStatus) (fun t _ => t = .outside) .outside := by
    apply Prog.keeps_bind_iff.mpr
    refine (hm store).mono ?_
    rintro t ⟨e | x, l'⟩ ht
    · exact ht
    · exact ht
  have hopen (runId scope now : String) : ((EventStore.new env runId scope now ()).bind fun x =>
      (.done (x.1.map EventValue.store, x.1.toOption) : Prog Call Answer (EventResult F X))).Keeps
        (bracketing Stmt.OffStatus) (fun t _ => t = .outside) .outside := by
    apply Prog.keeps_bind_iff.mpr
    refine (EventStore.closes_new runId scope now ()).mono ?_
    rintro t ⟨e | x, l'⟩ ht
    · exact ht
    · exact ht
  cases l with
  | none =>
    cases op with
    | open_ runId scope now => exact hopen runId scope now
    | _ => rfl
  | some handle =>
    cases op with
    | open_ runId scope now => exact hopen runId scope now
    | append event => exact hstore (EventStore.closes_append event) _ _
    | truncateAfter id => exact hstore (EventStore.closes_truncateAfter id) _ _
    | iterEvents after until_ => exact hstore (EventStore.closes_iterEvents after until_) _ _
    | getEvent id => exact hstore (EventStore.closes_getEvent id) _ _
    | count =>
      refine hstore ?_ _ _
      refine Method.Takes.get fun self => EventStore.closes_ensureOpen.bind fun _ => ?_
      exact (closes_query _ (by trivial)).bind fun n => closes_pure _
    | verifyIntegrity =>
      exact hstore (EventStore.closes_verifiedRowsAndRun.bind fun _ => closes_pure _) _ _
    | getRun => exact hstore EventStore.closes_getRun _ _
    | upsertRun patch createdAt => exact hstore (EventStore.closes_upsertRun patch createdAt) _ _
    | forkPrefix newRunId id label now now' =>
      apply Prog.keeps_bind_iff.mpr
      refine (EventStore.closes_forkPrefix newRunId id label now now' handle.store).mono ?_
      rintro t ⟨e | x, l'⟩ ht
      · exact ht
      · exact ht
    | close => exact hstore (closes_modify _) _ _

/-! ### The graph store -/

namespace GraphStore

lemma closes_ensureOpen : OffStatus ensureOpen := Method.Takes.get fun _ => closes_lift _

lemma closes_assertScopedRow (scope runId : String) (logical : Option (String × String)) :
    OffStatus (assertScopedRow scope runId logical) :=
  Method.Takes.get fun _ => (closes_lift _).bind fun _ => closes_lift _

lemma closes_projectionRow : OffStatus projectionRow := by
  refine Method.Takes.get fun self => (closes_query _ (by trivial)).bind fun row => ?_
  cases row with
  | none => exact closes_pure none
  | some row => exact (closes_assertScopedRow _ _ _).bind fun _ => closes_pure (some row)

lemma closes_projectionStatus : OffStatus projectionStatus := by
  refine closes_ensureOpen.bind fun _ => closes_projectionRow.bind fun row => ?_
  cases row with
  | none => exact closes_throw _
  | some row => exact closes_pure row.status

lemma closes_assertReadable : OffStatus assertReadable := by
  refine Method.Takes.get fun self => closes_ensureOpen.bind fun _ => ?_
  exact closes_projectionStatus.bind fun status => closes_lift _

lemma closes_vertexRecordId (objectId : String) : OffStatus (vertexRecordId env objectId) :=
  Method.Takes.get fun _ => closes_lift _

lemma closes_relationRecordId (relationId : String) : OffStatus (relationRecordId env relationId) :=
  Method.Takes.get fun _ => closes_lift _

lemma closes_patchRecordId (patchId : String) : OffStatus (patchRecordId env patchId) :=
  Method.Takes.get fun _ => closes_lift _

lemma closes_getObject (objectId : String) : OffStatus (getObject env objectId) := by
  refine closes_assertReadable.bind fun _ => (closes_vertexRecordId objectId).bind fun vertex => ?_
  refine (closes_query _ (by trivial)).bind fun row => ?_
  cases row with
  | none => exact closes_pure none
  | some row =>
    have hrow : OffStatus (if row.objectPresent then do
          assertScopedRow row.scope row.runId (some (row.objectId, objectId))
          return some (← lift (objectFromRow env row))
        else return none : Py GraphStore (Option (Object F X))) := by
      split
      · refine (closes_assertScopedRow _ _ _).bind fun _ => ?_
        exact (closes_lift _).bind fun obj => closes_pure (some obj)
      · exact closes_pure none
    exact hrow

lemma closes_selectObjects (filter : ObjectFilter) (limit : Option Int) :
    OffStatus (selectObjects env filter limit) :=
  Method.Takes.get fun _ => (closes_query _ (by trivial)).bind fun _ => closes_lift _

lemma closes_selectRelations (filter : RelationFilter) (ordered : Bool) :
    OffStatus (selectRelations env filter ordered) :=
  Method.Takes.get fun _ => (closes_query _ (by trivial)).bind fun _ => closes_lift _

lemma closes_walk (depth : Nat) (w : Walk) : OffStatus (walk depth w) := by
  induction depth generalizing w with
  | zero => exact closes_pure w
  | succ depth ih =>
    unfold walk
    split
    · exact closes_pure w
    · exact Method.Takes.get fun self => (closes_query _ (by trivial)).bind fun rows => ih _

lemma closes_neighborhood (objectId : String) (depth : Int) :
    OffStatus (neighborhood env objectId depth) := by
  have hobjects : ∀ ids, OffStatus (objectsByLogicalIds env ids) := by
    intro ids
    cases ids with
    | nil => exact closes_pure []
    | cons id ids => exact closes_selectObjects _ _
  have hrelations : ∀ ids, OffStatus (relationsByLogicalIds env ids) := by
    intro ids
    cases ids with
    | nil => exact closes_pure []
    | cons id ids => exact closes_selectRelations _ _
  refine closes_assertReadable.bind fun _ => (closes_getObject objectId).bind fun obj => ?_
  cases obj with
  | none => exact closes_pure ([], [])
  | some obj =>
    refine (closes_walk _ _).bind fun w => (hobjects _).bind fun objects => ?_
    exact (hrelations _).bind fun relations => closes_pure (objects, relations)

lemma closes_queryObjects (plan : ObjectQuery F X) : OffStatus (queryObjects env plan) := by
  refine closes_assertReadable.bind fun _ => ?_
  have hplan : OffStatus (if plan.resultMode = "exists" ∧ (plan.where_.getD []).isEmpty then do
        return ⟨[], [], some (← objectExists plan.type)⟩
      else do
        let limit := if (plan.where_.getD []).isEmpty then plan.limit else none
        return ⟨← selectObjects env (objectFilter plan.type) limit, plan.where_.getD [], none⟩ :
          Py GraphStore (ObjectQueryResult F X)) := by
    split
    · refine Method.Takes.bind ?_ fun found => closes_pure _
      exact Method.Takes.get fun self =>
        (closes_query _ (by trivial)).bind fun rows => closes_pure _
    · exact (closes_selectObjects _ _).bind fun objects => closes_pure _
  exact hplan

lemma works_ensurePlaceholder (vertex : RecordId .agVertex) (objectId : String) :
    Works (ensurePlaceholderInTransaction vertex objectId) := by
  refine (works_txQuery _ (by trivial)).bind fun row => ?_
  cases row with
  | none =>
    refine Method.Takes.bind ?_ fun content => works_txQuery _ (by trivial)
    exact Method.Takes.get fun self => (works_lift _).bind fun seq => Method.takes_pure _
  | some row => exact Method.Takes.get fun self => (works_lift _).bind fun _ => works_lift _

lemma closes_putRelation (rel : Relation F X) : OffStatus (putRelation env rel) := by
  have hbody (source target : RecordId .agVertex) (relation : RecordId .agRelation) :
      Commits (relationTransaction env rel source target relation) := by
    refine Method.Takes.get fun self => (works_ensurePlaceholder _ _).bind fun _ => ?_
    refine (works_ensurePlaceholder _ _).bind fun _ => ?_
    refine (works_txQuery _ (by trivial)).bind fun _ => (works_lift _).bind fun record => ?_
    exact (works_txQuery _ (by trivial)).bind fun _ => commits_commit
  refine closes_assertReadable.bind fun _ => (closes_vertexRecordId _).bind fun source => ?_
  refine (closes_vertexRecordId _).bind fun target => ?_
  refine (closes_relationRecordId _).bind fun relation => takes_begin.bind fun _ => ?_
  refine (hbody source target relation).tryCatch fun e t ht => ?_
  exact (takes_cancel ht).bind fun _ => closes_throw e

lemma closes_removeObject (objectId : String) : OffStatus (removeObject env objectId) := by
  refine closes_assertReadable.bind fun _ => (closes_vertexRecordId objectId).bind fun vertex => ?_
  refine (closes_query _ (by trivial)).bind fun row => ?_
  cases row with
  | none => exact closes_pure ()
  | some row =>
    refine (closes_assertScopedRow _ _ _).bind fun _ => ?_
    refine Method.Takes.bind ?_ fun content => closes_query _ (by trivial)
    exact Method.Takes.get fun self => (closes_lift _).bind fun seq => closes_pure _

lemma closes_getRelation (relationId : String) : OffStatus (getRelation env relationId) := by
  refine closes_assertReadable.bind fun _ => (closes_relationRecordId _).bind fun relation => ?_
  refine (closes_query _ (by trivial)).bind fun row => ?_
  cases row with
  | none => exact closes_pure none
  | some row =>
    refine (closes_assertScopedRow _ _ _).bind fun _ => ?_
    exact (closes_lift _).bind fun rel => closes_pure (some rel)

lemma closes_getPatch (patchId : String) : OffStatus (getPatch env patchId) := by
  refine closes_assertReadable.bind fun _ => (closes_patchRecordId _).bind fun record => ?_
  refine (closes_query _ (by trivial)).bind fun row => ?_
  cases row with
  | none => exact closes_pure none
  | some row =>
    refine (closes_assertScopedRow _ _ _).bind fun _ => ?_
    exact (closes_lift _).bind fun patch => closes_pure (some patch)

lemma closes_clear : OffStatus clear := by
  refine Method.Takes.get fun self => closes_ensureOpen.bind fun _ => ?_
  refine (closes_query _ (by trivial)).bind fun _ => (closes_query _ (by trivial)).bind fun _ => ?_
  exact closes_query _ (by trivial)

lemma closes_setProjectionStatus (status : String) (error : Option String) :
    Closes (Stmt.Sets status) (setProjectionStatus status error) :=
  Method.Takes.get fun _ => closes_query _ (.inr ⟨_, _, rfl, rfl⟩)

lemma closes_beginRebuild : Closes (Stmt.Sets "rebuilding") beginRebuild := by
  refine (closes_ensureOpen.closes fun _ => .inl).bind fun _ => ?_
  refine (closes_setProjectionStatus _ _).bind fun _ => (closes_modify _).bind fun _ => ?_
  exact closes_clear.closes fun _ => .inl

lemma closes_mark (status : String) (error : Option String) : Closes (Stmt.Sets status) (do
    ensureOpen
    setProjectionStatus status error
    modify fun self => { self with rebuildingHere := false } : Py GraphStore Unit) := by
  refine (closes_ensureOpen.closes fun _ => .inl).bind fun _ => ?_
  exact (closes_setProjectionStatus _ _).bind fun _ => closes_modify _

lemma closes_new (runId scope : String) :
    Closes Stmt.Creates (new env runId scope : Py ℓ GraphStore) := by
  have hread : Closes Stmt.Creates projectionRow := closes_projectionRow.closes fun _ => .inl
  have hrecord : Closes Stmt.Creates ensureProjectionRecord := by
    refine Method.Takes.get fun self => hread.bind fun row => ?_
    cases row with
    | some row => exact closes_pure ()
    | none =>
      refine (closes_query _ (.inr ⟨_, _, rfl⟩)).tryCatch fun e t ht => ?_
      subst ht
      exact hread.bind fun row => closes_lift _
  have hconstruct : Closes Stmt.Creates (construct env runId scope) := by
    refine (closes_lift _).bind fun _ => (closes_lift _).bind fun _ => ?_
    refine (closes_modify _).bind fun _ => (closes_query _ (.inl trivial)).bind fun _ => ?_
    refine Method.Takes.tryCatch (E := (· = TxState.outside)) ?_ fun e t ht => ?_
    · refine ((closes_ensureSchema _).closes fun _ => .inl).bind fun _ => ?_
      exact (closes_lift _).bind fun record => (closes_modify _).bind fun _ => hrecord
    · subst ht
      exact (closes_modify _).bind fun _ => closes_throw e
  intro l
  apply Prog.keeps_bind_iff.mpr
  refine (hconstruct blank).mono ?_
  rintro t ⟨e | u, self⟩ ht
  · exact ht
  · exact ht

end GraphStore

lemma GraphCall.closes_code (c : GraphCall F X) : OffStatus (c.code env) := by
  cases c with
  | putObject obj =>
    refine GraphStore.closes_assertReadable.bind fun _ => Method.Takes.get fun self => ?_
    refine (closes_lift _).bind fun seq => (closes_lift _).bind fun record => ?_
    exact (GraphStore.closes_vertexRecordId _).bind fun vertex => closes_query _ (by trivial)
  | getObject objectId => exact GraphStore.closes_getObject objectId
  | removeObject objectId => exact GraphStore.closes_removeObject objectId
  | allObjects =>
    refine GraphStore.closes_assertReadable.bind fun _ => Method.Takes.get fun self => ?_
    exact (closes_query _ (by trivial)).bind fun rows => closes_lift _
  | putRelation rel => exact GraphStore.closes_putRelation rel
  | getRelation relationId => exact GraphStore.closes_getRelation relationId
  | removeRelation relationId =>
    refine GraphStore.closes_assertReadable.bind fun _ => ?_
    exact (GraphStore.closes_relationRecordId _).bind fun relation => closes_query _ (by trivial)
  | allRelations =>
    exact GraphStore.closes_assertReadable.bind fun _ => GraphStore.closes_selectRelations _ _
  | queryObjects plan => exact GraphStore.closes_queryObjects plan
  | findObjects objectType =>
    exact GraphStore.closes_assertReadable.bind fun _ => GraphStore.closes_selectObjects _ _
  | findObjectsInTypes types =>
    cases types with
    | nil => exact closes_pure []
    | cons type types =>
      exact GraphStore.closes_assertReadable.bind fun _ => GraphStore.closes_selectObjects _ _
  | findRelations source target relationType =>
    exact GraphStore.closes_assertReadable.bind fun _ => GraphStore.closes_selectRelations _ _
  | neighborhood objectId depth => exact GraphStore.closes_neighborhood objectId depth
  | putPatch patch =>
    refine GraphStore.closes_assertReadable.bind fun _ => Method.Takes.get fun self => ?_
    refine (GraphStore.closes_patchRecordId _).bind fun record => ?_
    exact (closes_lift _).bind fun content => closes_query _ (by trivial)
  | getPatch patchId => exact GraphStore.closes_getPatch patchId
  | allPatches =>
    refine GraphStore.closes_assertReadable.bind fun _ => Method.Takes.get fun self => ?_
    exact (closes_query _ (by trivial)).bind fun rows => closes_lift _
  | removePatch patchId =>
    refine GraphStore.closes_assertReadable.bind fun _ => ?_
    exact (GraphStore.closes_patchRecordId _).bind fun record => closes_query _ (by trivial)
  | clear => exact GraphStore.closes_clear

/-- The queries of an operation. -/
def GraphOp.Queried : GraphOp F X → Stmt → Prop
  | open_ _ _ => Stmt.Creates
  | beginRebuild => Stmt.Sets "rebuilding"
  | markReady => Stmt.Sets "ready"
  | markFailed _ => Stmt.Sets "failed"
  | _ => Stmt.OffStatus

lemma GraphOp.closes_code (l : Option GraphStore) (op : GraphOp F X) :
    (op.code env l).Keeps (bracketing op.Queried) (fun t _ => t = .outside) .outside := by
  have hstore {α : Type} {P : Stmt → Prop} {m : Py GraphStore α} (hm : Closes P m)
      (f : α → GraphValue F X) (store : GraphStore) :
      (onGraphStore m f store).Keeps (bracketing P) (fun t _ => t = .outside) .outside := by
    apply Prog.keeps_bind_iff.mpr
    refine (hm store).mono ?_
    rintro t ⟨e | x, l'⟩ ht
    · exact ht
    · exact ht
  have hopen (runId scope : String) : ((GraphStore.new env runId scope ()).bind fun x =>
      (.done (x.1.map GraphValue.store, x.1.toOption) : Prog Call Answer (GraphResult F X))).Keeps
        (bracketing Stmt.Creates) (fun t _ => t = .outside) .outside := by
    apply Prog.keeps_bind_iff.mpr
    refine (GraphStore.closes_new runId scope ()).mono ?_
    rintro t ⟨e | x, l'⟩ ht
    · exact ht
    · exact ht
  cases l with
  | none =>
    cases op with
    | open_ runId scope => exact hopen runId scope
    | _ => rfl
  | some store =>
    cases op with
    | open_ runId scope => exact hopen runId scope
    | call c => exact hstore c.closes_code _ _
    | projectionStatus => exact hstore GraphStore.closes_projectionStatus _ _
    | beginRebuild => exact hstore GraphStore.closes_beginRebuild _ _
    | markReady => exact hstore (GraphStore.closes_mark "ready" none) _ _
    | markFailed error => exact hstore (GraphStore.closes_mark "failed" _) _ _
    | close => exact hstore (closes_modify _) _ _

/-! ### Replays -/

section replays

variable {lib : Framework F X}

variable {D : Typestate Call Answer TxState} {a b : TxState} {E : TxState → Prop}

lemma takes_onEvents {m : Py EventStore α} (hm : Method.Takes D a b E m) :
    Method.Takes D a b E (onEvents m) := by
  intro stores
  apply Prog.keeps_bind_iff.mpr
  refine (hm stores.events).mono ?_
  rintro t ⟨e | x, l'⟩ ht
  · exact ht
  · exact ht

lemma takes_onGraph {m : Py GraphStore α} (hm : Method.Takes D a b E m) :
    Method.Takes D a b E (onGraph m) := by
  intro stores
  apply Prog.keeps_bind_iff.mpr
  refine (hm stores.graph).mono ?_
  rintro t ⟨e | x, l'⟩ ht
  · exact ht
  · exact ht

lemma closes_interpret (p : GraphProg F X (Except PyErr α)) : OffStatus (interpret env p) := by
  induction p with
  | done r =>
    cases r with
    | error e => exact closes_throw e
    | ok a => exact closes_pure a
  | call c k ih =>
    refine (takes_onGraph c.closes_code).tryElse (fun e t ht => ?_) fun a => ih _
    subst ht
    exact ih _

lemma closes_replayEvents (graph : lib.Graph) (events : List (Event F X)) :
    OffStatus (replayEvents env lib graph events) := by
  induction events generalizing graph with
  | nil => exact closes_pure graph
  | cons event events ih => exact (closes_interpret _).bind fun graph => ih graph

lemma closes_replayGraph : Closes (fun _ => True) (replayGraph env lib) := by
  have hany {ℓ α : Type} {P : Stmt → Prop} {m : Py ℓ α} (hm : Closes P m) :
      Closes (fun _ => True) m := fun l => keeps_queries (fun _ _ => trivial) (hm l)
  have hrebuild : Closes (fun _ => True) (rebuild env lib) := by
    refine Method.Takes.get fun stores => ?_
    refine (takes_onGraph (hany GraphStore.closes_beginRebuild)).bind fun _ => ?_
    refine (takes_onEvents (hany (EventStore.closes_iterEvents none none))).bind fun events => ?_
    refine (closes_lift _).bind fun _ => (hany (closes_interpret _)).bind fun graph => ?_
    refine (hany (closes_replayEvents graph events)).bind fun graph => ?_
    refine (closes_lift _).bind fun graph => ?_
    exact (takes_onGraph (hany (GraphStore.closes_mark "ready" none))).bind fun _ =>
      closes_pure graph
  refine Method.Takes.get fun stores => (closes_lift _).bind fun _ => ?_
  refine (closes_lift _).bind fun _ => ?_
  refine hrebuild.tryCatch fun exc t ht => ?_
  subst ht
  refine Method.Takes.bind ?_ fun _ => closes_throw exc
  refine (takes_onGraph (hany (GraphStore.closes_mark "failed" _))).tryCatch fun e t ht => ?_
  subst ht
  exact closes_pure ()

end replays

/-! ### Every operation -/

section operations

variable {lib : Framework F X} {sdk : Sdk} {lostCall lostAnswer : Prop}

theorem ProviderOp.closes_code (held : Held) (op : ProviderOp F X) :
    (op.code env lib held).Keeps bracketed (fun t _ => t = .outside) .outside := by
  cases op with
  | events op =>
    apply Prog.keeps_bind_iff.mpr
    exact keeps_bracketed (op.closes_code _)
  | graph op =>
    apply Prog.keeps_bind_iff.mpr
    exact keeps_bracketed (op.closes_code _)
  | replay =>
    obtain ⟨_ | events, _ | graph⟩ := held
    · rfl
    · rfl
    · rfl
    · apply Prog.keeps_bind_iff.mpr
      refine (keeps_bracketed (closes_replayGraph ⟨events, graph⟩)).mono ?_
      rintro t ⟨e | x, l'⟩ ht
      · exact ht
      · exact ht

/-- Whatever a server answers, an operation makes the statements of a transaction between its
beginning and its end and no other calls there, withdraws it after the first failure in it, and
returns or raises outside of it. -/
theorem transactions_bracketed (serve : Server Call Answer σ) (held : Held) (op : ProviderOp F X)
    (s s' : σ) (h : List (CallRec Call Answer σ)) (a : ProviderResult lib)
    (he : (op.code env lib held).Exec serve s h a s') :
    bracketed.Allows .outside h ∧ bracketed.after .outside h = .outside :=
  (op.closes_code held).exec he

/-- A query outside a transaction leaves the transactions as they are. -/
lemma tx_query {φ : Faults PyErr} {i : Nat} {st : Stmt} {r : Answer (.query st)} {db db' : Database}
    (hs : (engine sdk).serve φ i (.query st) db r db') : db'.tx i = db.tx i := by
  have hperform : ((engine sdk).perform i (.query st) db).2.tx i = db.tx i := by
    cases hexec : (engine sdk).exec st db.tables with
    | error e => simp only [Engine.perform, hexec]
    | ok x => simp only [Engine.perform, hexec, Engine.commit_tx]
  rcases hs with hs | ⟨e, -, -, ⟨-, rfl⟩ | ⟨-, rfl⟩⟩
  · have hdb : db' = ((engine sdk).perform i (.query st) db).2 := congrArg Prod.snd hs
    rw [hdb]
    exact hperform
  · rfl
  · exact hperform

/-- A commit that returns has ended its transaction. -/
lemma tx_commit {φ : Faults PyErr} {i : Nat} {u : Unit} {db db' : Database}
    (hs : (engine sdk).serve φ i .commit db (.ok u) db') : db'.tx i = none := by
  rcases hs with hs | ⟨e, -, herror, -⟩
  · cases htx : db.tx i with
    | none =>
      simp only [Engine.perform, htx] at hs
      cases congrArg Prod.fst hs
    | some tx =>
      have hdb : db' = ((engine sdk).perform i .commit db).2 := congrArg Prod.snd hs
      rw [hdb, Engine.perform_commit _ htx]
      simp only
      split
      · exact Function.update_self ..
      · rw [Engine.commit_tx]
        exact Function.update_self ..
  · cases herror

/-- No beginning that raises has begun a transaction after all, and no withdrawal is lost. -/
structure Withdrawn (tr : List (ProviderLabel lib)) : Prop where
  begins : ∀ i held op s e s', .call i held op ⟨.begin, s, .error e, s'⟩ ∈ tr → s'.tx i = s.tx i
  cancels : ∀ i held op s r s', .call i held op ⟨.cancel, s, r, s'⟩ ∈ tr → s'.tx i = none

/-- Between two operations a client has no open transaction. -/
theorem no_transaction_outlives {tr : List (ProviderLabel lib)} {c : ProviderConfig lib}
    (hrun : Provides env sdk lib lostCall lostAnswer tr c) (hwithdrawn : Withdrawn tr) {i : Nat}
    {held : Held} (hidle : c.client i = .idle held) : c.shared.tx i = none := by
  have hopen := System.Run.keeps (D := bracketed)
    (J := fun i t (db : Database) => t = .outside → db.tx i = none)
    (fun held op => ProviderOp.closes_code held op) (fun _ _ => rfl) ?_ ?_ hrun
  · exact hopen.1 i held hidle rfl
  · rintro j held' op ⟨c, s, r, s'⟩ t hmem hserve hallowed hJ hout
    cases c with
    | query st =>
      have ht : t = .outside := by cases r <;> exact hout
      exact (tx_query hserve).trans (hJ ht)
    | begin =>
      cases r with
      | error e =>
        have ht : t = .outside := hout
        exact (hwithdrawn.begins j held' op s e s' hmem).trans (hJ ht)
      | ok u => cases hout
    | txQuery st =>
      cases r with
      | error e => cases hout
      | ok a =>
        have ht : t = .outside := hout
        subst ht
        exact hallowed.elim
    | commit =>
      cases r with
      | error e => cases hout
      | ok u => exact tx_commit hserve
    | cancel => exact hwithdrawn.cancels j held' op s r s' hmem
  · rintro j k held' op rec t hjk - hserve hJ ht
    exact (serve_tx hserve hjk).trans (hJ ht)

/-- Without faults every transaction that fails is withdrawn. -/
lemma withdrawn_of_faultless {tr : List (ProviderLabel lib)} {c : ProviderConfig lib}
    (hrun : Provides env sdk lib False False tr c) : Withdrawn tr := by
  have hserved : ∀ i held op (rec : CallRec Call Answer Database), .call i held op rec ∈ tr →
      (rec.answer, rec.after) = (engine sdk).perform i rec.call rec.before := by
    intro i held op rec hmem
    rcases hrun.served hmem with hs | ⟨e, -, -, ⟨hlost, -⟩ | ⟨hlost, -⟩⟩
    · exact hs
    · exact hlost.elim
    · exact hlost.elim
  constructor
  · intro i held op s e s' hmem
    have hanswer := congrArg Prod.fst (hserved i held op _ hmem)
    cases hanswer
  · intro i held op s r s' hmem
    have hdb : s' = ((engine sdk).perform i .cancel s).2 :=
      congrArg Prod.snd (hserved i held op _ hmem)
    rw [hdb]
    exact Function.update_self ..

end operations

/-! ### A truncation that fails -/

/-- A truncation of an empty run. -/
def nothingToTruncate : ProviderOrders :=
  [.start 0 (.events (.open_ "r" "s" "now")), .finish 0, .start 0 (.events (.truncateAfter "a")),
    .finish 0]

theorem transactions_bracketed_truncateAfter :
    let h := (ProviderOp.code (reference Unit) referenceFramework
      ⟨some (referenceStore ("s", "r")), none⟩ (.events (.truncateAfter "a"))).history
        ((engine referenceSdk).perform 0) freshDatabase
    bracketed.Allows .outside h ∧ bracketed.after .outside h = .outside :=
  transactions_bracketed (serving ((engine referenceSdk).perform 0)) _ _ _ _ _ _
    (Prog.exec_serving _ _ _)

theorem no_transaction_outlives_nothingToTruncate :
    (provided nothingToTruncate).2.shared.tx 0 = none := by
  have hidle : (provided nothingToTruncate).2.client 0 =
      .idle ⟨some (referenceStore ("s", "r")), none⟩ := rfl
  exact no_transaction_outlives (provides_provided nothingToTruncate)
    (withdrawn_of_faultless (provides_provided nothingToTruncate)) hidle

end ActiveGraphSurreal
