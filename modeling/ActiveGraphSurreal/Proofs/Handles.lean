import ActiveGraphSurreal.Library.Clients
import ActiveGraphSurreal.Proofs.Forking

/-!
# Handles at work

The clients of one database, each with one event store handle at a time. Beside its handle
a client keeps the list of events that the handle has observed last: at its opening, or
right after its own last acknowledged commit.
-/

namespace ActiveGraphSurreal

open Library Setting

set_option linter.unusedSectionVars false

variable {F X : Type} [Json.ScalarText F]

inductive EventOp (F X : Type) where
  | open_ (runId scope now : String)
  | append (event : Event F X)
  | truncateAfter (eventId : String)
  | iterEvents (after until_ : Option String)
  | getEvent (eventId : String)
  | count
  | verifyIntegrity
  | getRun
  | upsertRun (patch : RunPatch) (createdAt : String)
  | forkPrefix (newRunId atEventId : String) (label : Option String) (now now' : String)
  | close

inductive EventValue (F X : Type) where
  | unit
  | events (es : List (Event F X))
  | event (e : Option (Event F X))
  | number (n : Int)
  | report (r : IntegrityReport)
  | run (r : Option RunRecord)
  | store (s : EventStore)

structure Handle (F : Type) [Json.ScalarText F] where
  store : EventStore
  view : List (LogEvent F)

/-- The list of a run right after the last call. -/
def lastWritten (F : Type) [Json.ScalarText F] (h : Hist) (g : String × String) :
    List (LogEvent F) :=
  match h.getLast? with
  | some rec => rec.after.tables.events g
  | none => []

abbrev EventResult (F X : Type) := Except PyErr (EventValue F X) × Option EventStore

def onStore {α : Type} (m : Py EventStore α) (f : α → EventValue F X) (store : EventStore) :
    Prog Call Answer (EventResult F X) :=
  (m store).bind fun x => .done (x.1.map f, some x.2)

/-- A client without a handle has nothing to call. -/
def noStore : PyErr := ⟨.other "NameError", "name 'store' is not defined"⟩

namespace EventOp

def code (env : Env F X) : Option (Handle F) → EventOp F X → Prog Call Answer (EventResult F X)
  | _, open_ runId scope now => (EventStore.new env runId scope now ()).bind fun x =>
      .done (x.1.map .store, x.1.toOption)
  | none, _ => .done (.error noStore, none)
  | some handle, append event =>
      onStore (EventStore.append env event) (fun _ => .unit) handle.store
  | some handle, truncateAfter id =>
      onStore (EventStore.truncateAfter env id) (fun _ => .unit) handle.store
  | some handle, iterEvents after until_ =>
      onStore (EventStore.iterEvents env after until_) .events handle.store
  | some handle, getEvent id => onStore (EventStore.getEvent env id) .event handle.store
  | some handle, count => onStore EventStore.count .number handle.store
  | some handle, verifyIntegrity =>
      onStore (EventStore.verifyIntegrity env) .report handle.store
  | some handle, getRun => onStore EventStore.getRun .run handle.store
  | some handle, upsertRun patch createdAt =>
      onStore (EventStore.upsertRun patch createdAt) (fun _ => .unit) handle.store
  | some handle, forkPrefix newRunId id label now now' =>
      onStore (EventStore.forkPrefix env newRunId id label now now') .store handle.store
  | some handle, close => onStore EventStore.close (fun _ => .unit) handle.store

/-- The handle after an operation, and what it has observed last. -/
def finish (l : Option (Handle F)) (op : EventOp F X) (h : Hist) (a : EventResult F X) :
    Option (Handle F) :=
  match a.2 with
  | none => l
  | some store =>
    match op, a.1 with
    | open_ .., _ => some ⟨store, lastRead F h⟩
    | append _, .ok _ => some ⟨store, lastWritten F h store.address⟩
    | truncateAfter _, .ok _ => some ⟨store, lastWritten F h store.address⟩
    | _, _ => l.map fun handle => { handle with store }

end EventOp

/-- The clients of one database. Calls can be lost, and answers can be. -/
def eventSystem (env : Env F X) (sdk : Sdk) (lostCall lostAnswer : Prop) :
    System Nat (Option (Handle F)) (EventOp F X) Call Answer (EventResult F X) Database where
  serve i := (engine sdk).serve (faults lostCall lostAnswer) i
  code := EventOp.code env
  finish := EventOp.finish

/-! ### What a client may commit -/

variable {env : Env F X} {sdk : Sdk}

/-- A commit that replaces the list the handle has observed. -/
structure Rewrites (env : Env F X) (sdk : Sdk) (handle : Handle F)
    (grows : List (LogEvent F) → Prop) (c : Call) (ws : List Write) (t : Tables) : Prop where
  call : c = .commit
  sees : handle.store.Sees env handle.view
  before : t.events handle.store.address = handle.view
  after : ∃ M, grows M ∧ Move env t ((engine sdk).applyAll ws t) handle.store.address M

def Allows (env : Env F X) (sdk : Sdk) :
    Option (Handle F) → EventOp F X → Call → List Write → Tables → Prop
  | _, .open_ runId scope _, c, ws, t => c ≠ .commit ∧
    ((∀ w ∈ ws, w.OfSchema) ∨ Creates env sdk (scope, runId) ws t)
  | some handle, .append event, c, ws, t =>
    Rewrites env sdk handle (Appends env event handle.view) c ws t
  | some handle, .truncateAfter id, c, ws, t =>
    Rewrites env sdk handle (Truncates id handle.view) c ws t
  | some handle, .upsertRun _ _, c, ws, t => c ≠ .commit ∧
    (Creates env sdk handle.store.address ws t ∨ Describes env sdk handle.store.address ws t)
  | some handle, .forkPrefix newRunId id _ _ _, c, ws, t =>
    c = .commit ∧ Forks env handle.store.address (handle.store.scope, newRunId) id t
      ((engine sdk).applyAll ws t) ∨ c ≠ .commit ∧ ((∀ w ∈ ws, w.OfSchema) ∨
      Creates env sdk (handle.store.scope, newRunId) ws t)
  | _, _, _, _, _ => False

/-- A client at work among others. -/
def among (env : Env F X) (lostCall lostAnswer : Prop) (i : Nat)
    (allowed : Call → List Write → Tables → Prop) : Setting env where
  lostCall := lostCall
  lostAnswer := lostAnswer
  alone := False
  client := i
  rely := (guarded env).Rely i
  drift a b := Past a.tables b.tables
  allowed := allowed
  rely_sound _ _ h := h
  drift_rely _ _ h := h.1
  drift_quiet _ _ := Same.past
  drift_trans _ _ _ := past_trans _ _ _
  drift_past _ _ h := h
  drift_alone h := h.elim

/-! ### What an operation reports -/

/-- A write that returns has committed onto the list its handle has observed. One that
raises has committed nothing, or its commit was not acknowledged. -/
inductive WriteOutcome (env : Env F X) (handle : Handle F) (grows : List (LogEvent F) → Prop)
    (h : Hist) : Except PyErr (EventValue F X) → Prop
  | committed {v s s' M} (hgrows : grows M)
      (htakes : Takes env handle.store handle.view M (.ok ()) h s s') :
      WriteOutcome env handle grows h (.ok v)
  | refused {e} (hq : Quiet h) : WriteOutcome env handle grows h (.error e)
  | unacked {e e' s s' M} (hgrows : grows M)
      (htakes : Takes env handle.store handle.view M (.error e') h s s') :
      WriteOutcome env handle grows h (.error e)

def RaisesIntegrity {α : Type} (r : Except PyErr α) : Prop :=
  ∃ e, r = .error e ∧ e.cls = .ledgerIntegrityError

def Outcome (env : Env F X) : Option (Handle F) → EventOp F X → Hist →
    Except PyErr (EventValue F X) → Prop
  | _, .open_ runId scope _, h, r => RaisesIntegrity r ↔ Torn env (scope, runId) h
  | some handle, .append event, h, r =>
    WriteOutcome env handle (Appends env event handle.view) h r
  | some handle, .truncateAfter id, h, r =>
    WriteOutcome env handle (Truncates id handle.view) h r
  | some handle, .iterEvents _ _, h, r => RaisesIntegrity r ↔ Torn env handle.store.address h
  | some handle, .verifyIntegrity, h, r => RaisesIntegrity r ↔ Torn env handle.store.address h
  | _, _, _, _ => True

/-- What a client without an operation knows. -/
def Idle (env : Env F X) (l : Option (Handle F)) (s : Database) : Prop :=
  ∀ handle, l = some handle → handle.store.Sees env handle.view ∧
    (s.tables.ledger env handle.store.address).run ≠ none

/-- Where an operation ends. -/
def Ended (env : Env F X) (l : Option (Handle F)) (op : EventOp F X) (h : Hist)
    (a : EventResult F X) (s : Database) : Prop :=
  Idle env (op.finish l h a) s ∧ Outcome env l op h a.1

/-! ### Every operation keeps the contract -/

section safety

variable {lostCall lostAnswer : Prop} {i : Nat} {allowed : Call → List Write → Tables → Prop}
  {handle : Handle F} {s : Database}

lemma wp_onStore {S : Setting env} {α : Type} {m : Py EventStore α} {f : α → EventValue F X}
    {store : EventStore} {Q : Hist → EventResult F X → Database → Prop}
    {Q' : Hist → Except PyErr α × EventStore → Database → Prop} {h : Hist}
    (hm : S.Wp sdk Q' h (m store) s) (hQ : ∀ h x s, Q' h x s → Q h (x.1.map f, some x.2) s) :
    S.Wp sdk Q h (onStore m f store) s :=
  Prog.safe_bind_iff.mpr (wp_mono hm fun h x s hx => hQ h x s hx)

lemma idle_some {handle' : Handle F} (hsees : handle'.store.Sees env handle'.view)
    (hpresent : (s.tables.ledger env handle'.store.address).run ≠ none) :
    Idle env (some handle') s := by
  intro handle'' heq
  obtain rfl := Option.some.inj heq
  exact ⟨hsees, hpresent⟩

/-- A write and the list its handle has observed afterwards. -/
lemma outcome_of_end {S : Setting env} {rejects refuses : PyErr → Prop}
    {grows : List (LogEvent F) → Prop} {h : Hist} {x : Except PyErr Unit × EventStore}
    {s' : Database} (hsees : handle.store.Sees env handle.view)
    (hends : Ends sdk S handle.store handle.view rejects refuses grows
      (fun M _ store' => store' = handle.store.observed env M) s h x s') :
    WriteOutcome (X := X) env handle grows h (x.1.map fun _ => .unit) ∧
      ((∃ e, x.1 = .error e ∧ x.2 = handle.store) ∨
        x.1 = .ok () ∧ x.2.address = handle.store.address ∧
          x.2.Sees env (lastWritten F h handle.store.address)) := by
  obtain ⟨hc', hend⟩ := hends
  cases hend with
  | rejected hq he hd => exact ⟨.refused hq, .inl ⟨_, rfl, rfl⟩⟩
  | refused hq he hd₁ hview hd => exact ⟨.refused hq, .inl ⟨_, rfl, rfl⟩⟩
  | stale hq he hd₁ hview hd => exact ⟨.refused hq, .inl ⟨_, rfl, rfl⟩⟩
  | lost hq hrec hlost hd => exact ⟨.refused hq, .inl ⟨_, rfl, rfl⟩⟩
  | conflict hq hd₁ hd₂ hlog hd => exact ⟨.refused hq, .inl ⟨_, rfl, rfl⟩⟩
  | unacked hla hd₁ hgrows htakes hd₂ => exact ⟨.unacked hgrows htakes, .inl ⟨_, rfl, rfl⟩⟩
  | committed hd₁ hgrows htakes hlast hdone =>
    subst hdone
    refine ⟨.committed hgrows htakes, .inr ⟨rfl, rfl, ?_⟩⟩
    unfold lastWritten
    rw [hlast]
    simp only
    rw [events_of_holds hc'.1.keyed htakes.move.here]
    exact ⟨hsees.record, rfl, rfl⟩

lemma ended_write {S : Setting env} {rejects refuses : PyErr → Prop}
    {grows : List (LogEvent F) → Prop} {h : Hist} {x : Except PyErr Unit × EventStore}
    {s' : Database} (op : EventOp F X) (hidle : Idle env (some handle) s)
    (hop : ∀ store : EventStore, ∀ r, op.finish (some handle) h (r, some store) =
      match r with
      | .ok _ => some ⟨store, lastWritten F h store.address⟩
      | .error _ => some { handle with store })
    (hends : Ends sdk S handle.store handle.view rejects refuses grows
      (fun M _ store' => store' = handle.store.observed env M) s h x s')
    (hpast : Past s.tables s'.tables) :
    Idle env (op.finish (some handle) h (x.1.map fun _ => .unit, some x.2)) s' ∧
      WriteOutcome env handle grows h (x.1.map fun _ => (.unit : EventValue F X)) := by
  obtain ⟨hsees, hpresent⟩ := hidle handle rfl
  obtain ⟨houtcome, hstore⟩ := outcome_of_end (X := X) hsees hends
  refine ⟨?_, houtcome⟩
  obtain ⟨r, store⟩ := x
  rw [hop]
  rcases hstore with ⟨e, rfl, rfl⟩ | ⟨rfl, haddress, hsees'⟩
  · exact idle_some hsees (present_of_past hpresent hpast)
  · apply idle_some
    · rw [haddress]
      exact hsees'
    · simp only
      rw [haddress]
      exact present_of_past hpresent hpast

/-- A client at work with what its operation allows it to commit. -/
abbrev client (env : Env F X) (sdk : Sdk) (lostCall lostAnswer : Prop) (i : Nat)
    (l : Option (Handle F)) (op : EventOp F X) : Setting env :=
  among env lostCall lostAnswer i (Allows env sdk l op)

lemma not_raisesIntegrity {α : Type} {e : PyErr} (he : e.cls ≠ .ledgerIntegrityError) :
    ¬ RaisesIntegrity (.error e : Except PyErr α) := by
  rintro ⟨e', heq, he'⟩
  obtain rfl := Except.error.inj heq
  exact he he'

/-- A verification of the run reports a torn read and nothing else as a broken ledger. -/
lemma integrity_of_verdict {S : Setting env} {store : EventStore} {h : Hist}
    {v : Except PyErr (List EventRow × RunRow)} (hverdict : Verdict sdk S store s [] h v)
    {α : Type} {f : List EventRow × RunRow → Except PyErr α}
    (hf : ∀ p e, f p = .error e → e.cls ≠ .ledgerIntegrityError) :
    RaisesIntegrity (v.bind f) ↔ Torn env store.address h := by
  cases hverdict with
  | closed hclosed he =>
    apply iff_of_false
    · apply not_raisesIntegrity
      rw [he]
      decide
    · apply not_torn_of_calls
      simp
  | lost hlost he =>
    apply iff_of_false
    · exact not_raisesIntegrity (ne_ledgerIntegrityError he)
    · exact not_torn_of_error
  | torn hreads hne hopen he => exact ⟨fun _ => ⟨_, _, hreads, hne⟩, fun _ => ⟨_, rfl, he⟩⟩
  | @agreed h row s₁ L hreads hd hopen hgood hview hhead =>
    apply iff_of_false
    · rintro ⟨e, heq, he⟩
      exact hf _ e heq he
    · rintro ⟨L₁, L₂, hreads', hne⟩
      exact hne (reads_agree hreads' hreads)

lemma iterated_error {runId : String} {L : List (LogEvent F)} {after until_ : Option String}
    {e : PyErr} (h : (iterated env runId L after until_ : Except PyErr (List (Event F X))) =
      .error e) : e.cls ≠ .ledgerIntegrityError := by
  unfold iterated at h
  cases hentries : entries L after until_ with
  | error id =>
    rw [hentries] at h
    obtain rfl := Except.error.inj h
    simp [EventStore.eventNotFound]
  | ok es =>
    rw [hentries] at h
    cases h

lemma raisesIntegrity_map {α β : Type} {f : α → β} {r : Except PyErr α} :
    RaisesIntegrity (r.map f) ↔ RaisesIntegrity r := by
  cases r with
  | error e => simp [RaisesIntegrity, Except.map]
  | ok a => simp [RaisesIntegrity, Except.map]

/-- A client keeps its handle over an operation that is no acknowledged write. -/
lemma ended_kept {op : EventOp F X} {h : Hist} {r : Except PyErr (EventValue F X)} {s' : Database}
    (hidle : Idle env (some handle) s) (hpast : Past s.tables s'.tables)
    (hop : op.finish (some handle) h (r, some handle.store) = some handle)
    (houtcome : Outcome env (some handle) op h r) :
    Ended env (some handle) op h (r, some handle.store) s' := by
  obtain ⟨hsees, hpresent⟩ := hidle handle rfl
  refine ⟨?_, houtcome⟩
  rw [hop]
  exact idle_some hsees (present_of_past hpresent hpast)

/-- A read leaves the handle as it is. -/
lemma safe_read {α : Type} {m : Py EventStore α} {f : α → EventValue F X} {op : EventOp F X}
    {Q : Hist → Except PyErr α × EventStore → Database → Prop}
    (hidle : Idle env (some handle) s)
    (hm : (client env sdk lostCall lostAnswer i (some handle) op).Wp sdk Q [] (m handle.store) s)
    (hop : ∀ h r, op.finish (some handle) h (r, some handle.store) = some handle)
    (hQ : ∀ h x s', Q h x s' → x.2 = handle.store ∧ Outcome env (some handle) op h (x.1.map f)) :
    (client env sdk lostCall lostAnswer i (some handle) op).Wp sdk (Ended env (some handle) op) []
      (onStore m f handle.store) s := by
  apply wp_onStore (wp_past (past_refl _) hm)
  rintro h ⟨r, store⟩ s' ⟨hq, hpast⟩
  obtain ⟨hstore, houtcome⟩ := hQ h _ s' hq
  obtain rfl : store = handle.store := hstore
  exact ended_kept hidle hpast (hop h _) houtcome

variable (sdk lostCall lostAnswer i) in
/-- Every operation commits what it is allowed to and ends as it has to. -/
theorem safe_code (hsha : CollisionFree env) (henc : EncodesJson env) (hdict : EncodesDict env)
    (l : Option (Handle F)) (op : EventOp F X) (hc : Consistent env s) (hidle : Idle env l s) :
    (client env sdk lostCall lostAnswer i l op).Wp sdk (Ended env l op) [] (op.code env l) s := by
  have hstays : ∀ {handle : Handle F}, l = some handle → ∀ s' : Database,
      Past s.tables s'.tables → (s'.tables.ledger env handle.store.address).run ≠ none :=
    fun hl s' hd => present_of_past (hidle _ hl).2 hd
  cases op with
  | open_ runId scope now =>
    have hschema : ∀ st ws t, (∀ w ∈ ws, w.OfSchema) →
        Allows env sdk l (.open_ (F := F) (X := X) runId scope now) (.query st) ws t :=
      fun st ws t hw => ⟨nofun, .inl hw⟩
    have hcreates : ∀ st ws t, Good env t → Creates env sdk (scope, runId) ws t →
        Allows env sdk l (.open_ (F := F) (X := X) runId scope now) (.query st) ws t :=
      fun st ws t _ hw => ⟨nofun, .inr hw⟩
    have hnew := wp_new (S := client env sdk lostCall lostAnswer i l
      (.open_ (F := F) (X := X) runId scope now)) hsha henc hc runId scope now hschema hcreates ()
    apply Prog.safe_bind_iff.mpr (wp_mono (wp_past (past_refl _) hnew) _)
    rintro h ⟨r, u⟩ s' ⟨⟨-, -, hopening⟩, hpast⟩
    have hkept : Idle env l s' :=
      fun handle hl => ⟨(hidle handle hl).1, present_of_past (hidle handle hl).2 hpast⟩
    cases hopening with
    | failed he hread =>
      refine ⟨hkept, iff_of_false ?_ hread⟩
      exact not_raisesIntegrity he
    | torn hreads hne he => exact ⟨hkept, iff_of_true ⟨_, rfl, he⟩ ⟨_, _, hreads, hne⟩⟩
    | @opened _ store L hreads haddress hopen hsees hpresent hkeeps hview =>
      refine ⟨?_, iff_of_false ?_ ?_⟩
      · apply idle_some
        · rw [hreads.lastRead]
          exact hsees
        · rw [haddress]
          exact hpresent
      · rintro ⟨e, heq, -⟩
        cases heq
      · rintro ⟨L₁, L₂, hreads', hne⟩
        exact hne (reads_agree hreads' hreads)
  | append event =>
    cases l with
    | none => exact ⟨hidle, trivial⟩
    | some handle =>
      have hallowed : ∀ t ws M, Good env t → t.events handle.store.address = handle.view →
          Appends env event handle.view M →
          Move env t ((engine sdk).applyAll ws t) handle.store.address M →
          Allows env sdk (some handle) (.append event) .commit ws t :=
        fun t ws M _ hview hgrows hmove => ⟨rfl, (hidle handle rfl).1, hview, M, hgrows, hmove⟩
      have happend := wp_append
        (S := client env sdk lostCall lostAnswer i (some handle) (.append event))
        hsha henc hdict hc (hidle handle rfl).1 (hstays rfl) hallowed
      apply wp_onStore (wp_past (past_refl _) happend)
      rintro h ⟨r, store⟩ s' ⟨hends, hpast⟩
      exact ended_write (.append event) hidle (fun store r => by cases r <;> rfl) hends hpast
  | truncateAfter id =>
    cases l with
    | none => exact ⟨hidle, trivial⟩
    | some handle =>
      have hallowed : ∀ t ws M, Good env t → t.events handle.store.address = handle.view →
          Truncates id handle.view M →
          Move env t ((engine sdk).applyAll ws t) handle.store.address M →
          Allows env sdk (some handle) (.truncateAfter (F := F) (X := X) id) .commit ws t :=
        fun t ws M _ hview hgrows hmove => ⟨rfl, (hidle handle rfl).1, hview, M, hgrows, hmove⟩
      have htruncate := wp_truncateAfter
        (S := client env sdk lostCall lostAnswer i (some handle)
          (.truncateAfter (F := F) (X := X) id))
        hsha hc (hidle handle rfl).1 (hstays rfl) hallowed
      apply wp_onStore (wp_past (past_refl _) htruncate)
      rintro h ⟨r, store⟩ s' ⟨hends, hpast⟩
      exact ended_write (.truncateAfter id) hidle (fun store r => by cases r <;> rfl) hends hpast
  | iterEvents after until_ =>
    cases l with
    | none => exact ⟨hidle, trivial⟩
    | some handle =>
      apply safe_read hidle (wp_iterEvents hsha henc hc (hidle handle rfl).1.record (hstays rfl)
        after until_) (fun h r => by cases r <;> rfl)
      rintro h ⟨r, store⟩ s' ⟨-, -, hstore, v, hverdict, hr⟩
      obtain rfl : r = _ := hr
      exact ⟨hstore, raisesIntegrity_map.trans
        (integrity_of_verdict hverdict fun p e he => iterated_error he)⟩
  | getEvent id =>
    cases l with
    | none => exact ⟨hidle, trivial⟩
    | some handle =>
      apply safe_read hidle (wp_getEvent hc id) (fun h r => by cases r <;> rfl)
      rintro h x s' ⟨-, -, hstore, -⟩
      exact ⟨hstore, trivial⟩
  | count =>
    cases l with
    | none => exact ⟨hidle, trivial⟩
    | some handle =>
      apply safe_read hidle (wp_count hc) (fun h r => by cases r <;> rfl)
      rintro h x s' ⟨-, -, hstore, -⟩
      exact ⟨hstore, trivial⟩
  | verifyIntegrity =>
    cases l with
    | none => exact ⟨hidle, trivial⟩
    | some handle =>
      apply safe_read hidle (wp_verifyIntegrity handle.store hsha henc hc
        (hidle handle rfl).1.record (hstays rfl)) (fun h r => by cases r <;> rfl)
      rintro h ⟨r, store⟩ s' ⟨-, -, hstore, v, hverdict, hr⟩
      obtain rfl : r = _ := hr
      refine ⟨hstore, raisesIntegrity_map.trans ?_⟩
      have hbind : ∀ v : Except PyErr (List EventRow × RunRow),
          (v.map fun p => (⟨p.1.length, p.2.nextSeq, p.2.headHash⟩ : IntegrityReport)) =
            v.bind fun p => .ok ⟨p.1.length, p.2.nextSeq, p.2.headHash⟩ := by
        intro v
        cases v <;> rfl
      rw [hbind]
      exact integrity_of_verdict hverdict fun p e he => by cases he
  | getRun =>
    cases l with
    | none => exact ⟨hidle, trivial⟩
    | some handle =>
      apply safe_read hidle (wp_getRun hc (hidle handle rfl).1.record)
        (fun h r => by cases r <;> rfl)
      rintro h x s' ⟨-, -, hstore⟩
      exact ⟨hstore, trivial⟩
  | upsertRun patch createdAt =>
    cases l with
    | none => exact ⟨hidle, trivial⟩
    | some handle =>
      have hcreates : ∀ st ws t, Good env t → Creates env sdk handle.store.address ws t →
          Allows env sdk (some handle) (.upsertRun (F := F) (X := X) patch createdAt) (.query st)
            ws t := fun st ws t _ hw => ⟨nofun, .inl hw⟩
      have hdescribes : ∀ st ws t, Good env t → Describes env sdk handle.store.address ws t →
          Allows env sdk (some handle) (.upsertRun (F := F) (X := X) patch createdAt) (.query st)
            ws t := fun st ws t _ hw => ⟨nofun, .inr hw⟩
      apply safe_read hidle (wp_upsertRun hsha hc (hidle handle rfl).1.record patch createdAt
        hcreates hdescribes) (fun h r => by cases r <;> rfl)
      rintro h x s' ⟨-, hstore⟩
      exact ⟨hstore, trivial⟩
  | forkPrefix newRunId id label now now' =>
    cases l with
    | none => exact ⟨hidle, trivial⟩
    | some handle =>
      have hforks : ∀ ws t, Good env t → Forks env handle.store.address
          (handle.store.scope, newRunId) id t ((engine sdk).applyAll ws t) →
          Allows env sdk (some handle) (.forkPrefix (F := F) (X := X) newRunId id label now now')
            .commit ws t := fun ws t _ hw => .inl ⟨rfl, hw⟩
      have hschema : ∀ st ws t, (∀ w ∈ ws, w.OfSchema) →
          Allows env sdk (some handle) (.forkPrefix (F := F) (X := X) newRunId id label now now')
            (.query st) ws t := fun st ws t hw => .inr ⟨nofun, .inl hw⟩
      have hcreates : ∀ st ws t, Good env t →
          Creates env sdk (handle.store.scope, newRunId) ws t →
          Allows env sdk (some handle) (.forkPrefix (F := F) (X := X) newRunId id label now now')
            (.query st) ws t := fun st ws t _ hw => .inr ⟨nofun, .inr hw⟩
      have hfork := wp_forkPrefix
        (S := client env sdk lostCall lostAnswer i (some handle)
          (.forkPrefix (F := F) (X := X) newRunId id label now now'))
        hsha henc hc (hidle handle rfl).1 newRunId id label now now' (hstays rfl) hforks hschema
        hcreates
      apply safe_read hidle hfork (fun h r => by cases r <;> rfl)
      rintro h x s' ⟨-, hstore⟩
      exact ⟨hstore, trivial⟩
  | close =>
    cases l with
    | none => exact ⟨hidle, trivial⟩
    | some handle =>
      obtain ⟨hsees, hpresent⟩ := hidle handle rfl
      refine ⟨?_, trivial⟩
      exact idle_some ⟨hsees.record, hsees.nextSeq, hsees.headHash⟩ hpresent

end safety

end ActiveGraphSurreal
